import ContractClient.Proofs.Dict
import ContractClient.Proofs.Signing.Agreement
import ContractClient.Proofs.Text.Integer
import ContractClient.Proofs.Transaction.Draft

/-!
# Requests that are handed over

A signer refuses a request that is not ready before it does anything: the refusal is the same
whoever signs for the address, and nobody is asked. Every other request is handed to the key, the
node or the agent as it is, with the sender filled in (`Signer.signTransaction_hands_over`). What a
key and a node get is an object that tells what the request says, and nothing else
(`TransactionRequest.Tells`); an agent gets the digest of a payload that no other transaction has. A
request without a value has no payload, so that no agent is asked
(`Signer.not_handed_over_without_value`).
-/

namespace ContractClient

open Outcome Activity

namespace TransactionRequest

/-- The number that a member of an object gives, if it gives one. -/
def quantityField : Value → Outcome (Option Nat)
  | .null => .ok none
  | value => do
    let number ← Quantity.toInt value
    return some number.toNat

/-- The bytes that a member of an object gives, none if it gives nothing. -/
def dataField : Value → Outcome Bytes
  | .null => .ok []
  | value => Data.toBytes value

/-- What an object tells about a transaction. -/
def ofObject (object : Dict) : Outcome TransactionRequest := do
  let sender ← addressField "from" (Dict.memberOf object "from")
  let recipient ← addressField "to" (Dict.memberOf object "to")
  let value ← quantityField (Dict.memberOf object "value")
  let data ← dataField (Dict.memberOf object "data")
  let gas ← quantityField (Dict.memberOf object "gas")
  let gasPrice ← quantityField (Dict.memberOf object "gasPrice")
  let maxFeePerGas ← quantityField (Dict.memberOf object "maxFeePerGas")
  let maxPriorityFeePerGas ← quantityField (Dict.memberOf object "maxPriorityFeePerGas")
  let nonce ← quantityField (Dict.memberOf object "nonce")
  let chainId ← quantityField (Dict.memberOf object "chainId")
  return {
    sender, recipient, value, data, gas, gasPrice, maxFeePerGas, maxPriorityFeePerGas, nonce,
    chainId }

def memberNames : List String := [
  "from", "to", "value", "data", "gas", "gasPrice", "maxFeePerGas", "maxPriorityFeePerGas",
  "nonce", "chainId"]

/-- An object tells what a request says. Besides it has members of an envelope at most. -/
structure Tells (object : Dict) (request : TransactionRequest) (envelope : Dict := []) : Prop where
  reads : ofObject object = .ok request
  members : ∀ entry ∈ object, entry.1 ∈ memberNames ∨ entry ∈ envelope

section Objects

variable {request : TransactionRequest} {signable : Signable} {fee : Fee}

theorem quantityField_quantityText (number : Option Nat) :
    quantityField ((quantityText number).getD .null) = .ok number := by
  cases number with
  | none => rfl
  | some number => simp [quantityText, quantityField, Quantity.toInt_ofNat]

theorem quantityField_ofNat? (number : Option Nat) :
    quantityField (.ofNat? number) = .ok number := by
  cases number <;> rfl

theorem addressField_addressText {name : String} {address : Option Address}
    (size : ∀ known ∈ address, known.octets.length = Address.length) :
    addressField name ((addressText address).getD .null) = .ok address := by
  have read : addressField name (Value.ofOption (address.map Address.toValue)) = .ok address :=
    addressField_toValue_eq_ok_iff.mpr ⟨size, rfl⟩
  cases address <;> exact read

theorem dataField_payload (request : TransactionRequest) :
    dataField (request.payload.getD .null) = .ok request.data := by
  cases empty : request.data with
  | nil => simp [payload, empty, dataField]
  | cons octet octets =>
      simp [payload, empty, dataField, Data.toBytes, Data.ofBytes, Hex.text, Data.ofText?,
        Hex.decode?_encode]

/-- A node is told what a request says. No value is told like a value of zero. -/
theorem tells_toRpc (addressed : request.IsAddressed) :
    Tells request.toRpc { request with value := request.transferred } where
  reads := by
    have nothing : ∀ key, Dict.memberOf [] key = .null := fun _ => rfl
    simp [ofObject, toRpc, Dict.memberOf_setSome, nothing, quantityField_quantityText,
      addressField_addressText addressed.sender, addressField_addressText addressed.recipient,
      dataField_payload]
  members := by
    intro entry member
    refine Or.inl ?_
    revert entry
    unfold toRpc
    iterate 10 apply Dict.mem_keys_setSome (by decide)
    exact fun _ => nofun

/-- The members that an account takes besides those of a request. -/
def envelopeMembers (request : TransactionRequest) : Dict :=
  if request.isDynamicFee then
    [("type", .int dynamicFeeType.toNat), ("accessList", .list [])] else []

theorem memberOf_accountFields_to :
    Dict.memberOf request.accountFields "to" = (addressText request.recipient).getD .null := by
  cases named : request.recipient <;> cases way : request.isDynamicFee <;>
    simp [accountFields, Dict.memberOf, Dict.get?, named, way, addressText]

/-- An account is told what a request says but for its sender. -/
theorem tells_accountFields (pays : request.Pays fee) (formed : request.IsWellFormed) :
    Tells request.accountFields { request with sender := none } request.envelopeMembers where
  reads := by
    have way := pays.isDynamicFee
    have recipient : addressField "to" (Dict.memberOf request.accountFields "to") =
        .ok request.recipient := by
      rw [memberOf_accountFields_to, addressField_addressText formed]
    have nothing : addressField "from" .null = .ok none := rfl
    have noNumber : quantityField .null = .ok none := rfl
    have data : dataField (.bytes request.data) = .ok request.data := rfl
    simp only [ofObject, recipient]
    cases pays with
    | legacy price noCap noTip =>
        cases named : request.recipient <;>
          simp [accountFields, Dict.memberOf, Dict.get?, named, way, Fee.isDynamic, nothing,
            noNumber, data, quantityField_ofNat?, noCap, noTip]
    | dynamic noPrice cap tip =>
        cases named : request.recipient <;>
          simp [accountFields, Dict.memberOf, Dict.get?, named, way, Fee.isDynamic, nothing,
            noNumber, data, quantityField_ofNat?, noPrice]
  members := by
    cases named : request.recipient <;> cases way : request.isDynamicFee <;>
      simp [accountFields, envelopeMembers, memberNames, named, way]

end Objects

end TransactionRequest

/-- A request is refused: it is faulty itself, or lacks what a signer needs. -/
def IsRefused {α : Type} (outcome : Outcome α) : Prop :=
  ∃ fault, (fault.kind = .validation ∨ fault.kind = .signer) ∧ outcome = Outcome.fault fault

/-- A check refuses or accepts; there is no other way for it to end. -/
def Decides {α : Type} (outcome : Outcome α) : Prop :=
  IsRefused outcome ∨ ∃ value, outcome = .ok value

theorem Decides.bind {α β : Type} {outcome : Outcome α} {next : α → Outcome β}
    (first : Decides outcome) (second : ∀ value, Decides (next value)) :
    Decides (outcome >>= next) := by
  rcases first with ⟨fault, kind, rfl⟩ | ⟨value, rfl⟩
  · exact Or.inl ⟨fault, kind, rfl⟩
  · exact second value

namespace TransactionRequest

variable {request : TransactionRequest}

theorem addressField_of_ofFields {fields : Dict} (made : ofFields fields = .ok request) :
    addressField "from_address" (Value.ofOption (Dict.get? fields "from_address")) =
      .ok request.sender := by
  unfold ofFields at made
  simp only [bind_eq_ok_iff, condition_bind, refuse_condition_eq_ok_iff, pure_eq_ok,
    Except.ok.injEq] at made
  rcases made with ⟨_, sender, read, _, _, _, _, _, _, _, _, _, _, _, _, _, _, _, _, _, _, rfl⟩
  exact read

theorem isAddressed_of_ofFields {fields : Dict} (made : ofFields fields = .ok request) :
    request.IsAddressed :=
  ⟨length_of_addressField (addressField_of_ofFields made), isWellFormed_of_ofFields made⟩

/-- The case of the letters makes no other sender. -/
theorem sender_of_sameLetters {fields : Dict} {spelled other : String} {address : Address}
    (made : ofFields fields = .ok request)
    (named : Dict.get? fields "from_address" = some (.text spelled))
    (written : Address.ofText? other.toList = some address)
    (letters : spelled.toList.map Char.toLower = other.toList.map Char.toLower) :
    request.sender = some address := by
  have read := addressField_of_ofFields made
  have same : Address.ofText? spelled.toList = some address := by
    rw [← Address.ofText?_map_toLower, letters, Address.ofText?_map_toLower, written]
  simpa [named, Value.ofOption, addressField, Address.ofValue, same, Except.map, eq_comm] using read

theorem decides_requireField {α : Type} {name signer : String} {field : Option α} :
    Decides (requireField name signer field) := by
  cases field with
  | none => exact Or.inl ⟨_, Or.inr rfl, rfl⟩
  | some value => exact Or.inr ⟨value, rfl⟩

theorem decides_feeFor (signer : String) : Decides (request.feeFor signer) := by
  unfold feeFor
  split
  · exact decides_requireField.bind fun _ => decides_requireField.bind fun _ => Or.inr ⟨_, rfl⟩
  · exact decides_requireField.bind fun _ => Or.inr ⟨_, rfl⟩

theorem decides_checkSignable (signer : String) : Decides (request.checkSignable signer) := by
  have oneModel : Decides request.checkFeeModel := by
    unfold checkFeeModel
    split
    · exact Or.inl ⟨_, Or.inl rfl, rfl⟩
    · exact Or.inr ⟨_, rfl⟩
  have ready : Decides (request.signableFor signer) :=
    oneModel.bind fun _ => decides_requireField.bind fun _ => decides_requireField.bind fun _ =>
      decides_requireField.bind fun _ => (decides_feeFor signer).bind fun _ => Or.inr ⟨_, rfl⟩
  exact ready.bind fun _ => Or.inr ⟨_, rfl⟩

end TransactionRequest

namespace Signer

variable {signer : Signer} {request : TransactionRequest} {transport : Transport}

/-- A request cannot be signed by a signer as it is. -/
inductive IsUnready (signer : Signer) (request : TransactionRequest) : Prop where
  | noNonce (missing : request.nonce = none)
  | noChainId (missing : request.chainId = none)
  | noGas (missing : request.gas = none)
  | noFee (missing : request.LacksFee)
  | bothFees (single : request.hasLegacyFee = true) (capped : request.hasDynamicFee = true)
  | otherSender {sender : Address} (named : request.sender = some sender)
      (other : sender ≠ signer.address)

theorem decides_checkSender : Decides (signer.checkSender request) := by
  refine (TransactionRequest.decides_checkSignable _).bind fun _ => ?_
  split
  · exact Or.inr ⟨_, rfl⟩
  · split
    · exact Or.inl ⟨_, Or.inr rfl, rfl⟩
    · exact Or.inr ⟨_, rfl⟩

/-- All signers for an address check a request alike. -/
theorem checkSender_congr {other : Signer} (same : other.address = signer.address) :
    other.checkSender request = signer.checkSender request := by
  simp only [checkSender, same]

theorem accepts_of_not_isUnready (ready : ¬IsUnready signer request) :
    request.checkSignable = .ok () ∧ ∀ sender ∈ request.sender, sender = signer.address := by
  constructor
  · have complete : ∀ gap : TransactionRequest.Gap, ∃ number, gap.of request = some number := by
      intro gap
      rw [← Option.ne_none_iff_exists']
      intro missing
      cases gap with
      | nonce => exact ready (.noNonce missing)
      | gas => exact ready (.noGas missing)
      | chainId => exact ready (.noChainId missing)
    have oneModel := TransactionRequest.checkFeeModel_eq_ok_iff.mpr fun both =>
      ready (.bothFees both.1 both.2)
    exact (TransactionRequest.checkSignable_eq_ok_iff "" complete oneModel).mpr
      fun missing => ready (.noFee missing)
  · intro sender named
    by_contra other
    exact ready (.otherSender named other)

theorem checkSender_ne_ok_of_isUnready (unready : IsUnready signer request)
    (taken : TransactionRequest) : signer.checkSender request ≠ .ok taken := by
  intro accepted
  rcases bind_eq_ok_iff.mp accepted with ⟨_, signable, own⟩
  rcases TransactionRequest.exists_signableFor_of_checkSignable signable with ⟨_, fee, found⟩
  have ready := TransactionRequest.ready_of_signableFor found
  cases unready with
  | noNonce missing => simp [ready.nonce] at missing
  | noChainId missing => simp [ready.chainId] at missing
  | noGas missing => simp [ready.gas] at missing
  | noFee missing =>
      rcases missing with ⟨noPrice, noFees⟩
      cases ready.pays with
      | legacy price => simp [price] at noPrice
      | dynamic _ cap tip => simp [cap, tip] at noFees
  | bothFees single capped =>
      cases ready.pays with
      | legacy _ noCap noTip =>
          simp [TransactionRequest.hasDynamicFee, noCap, noTip] at capped
      | dynamic noPrice => simp [TransactionRequest.hasLegacyFee, noPrice] at single
  | otherSender named other =>
      simp [named, other, Outcome.fault] at own

/-- A request that is not ready is refused before anything is done, and by every signer for the
address alike. -/
theorem signTransaction_refuses (unready : IsUnready signer request) :
    ∃ fault, (fault.kind = .validation ∨ fault.kind = .signer) ∧
      ∀ (other : Signer) (transport : Transport), other.address = signer.address →
        other.signTransaction transport request = Activity.fault fault := by
  have decides : Decides (signer.checkSender request) := decides_checkSender
  rcases decides with ⟨fault, kind, refused⟩ | ⟨taken, accepted⟩
  · refine ⟨fault, kind, fun other transport same => ?_⟩
    rw [signTransaction, checkSender_congr same, refused]
    rfl
  · exact absurd accepted (checkSender_ne_ok_of_isUnready unready taken)

/-- A payload stands for a request: no other transaction has it. -/
def StandsFor (payload : Bytes) (request : TransactionRequest) : Prop :=
  request.signingPayload = .ok payload ∧
    ∀ other : TransactionRequest, other.IsWellFormed → payload.length < Rlp.lengthLimit →
      other.signingPayload = .ok payload → TransactionRequest.SameTransaction request other

/-- How a signer hands a request over: to its key, to the node or to its agent. Nobody else is asked
anything afterwards. Without a value there is nothing that an agent can be handed. -/
inductive HandsOver (transport : Transport) (request : TransactionRequest) :
    Signer → Activity Bytes → Prop where
  | toKey {key : SecretKey} {object : Dict} {next : Bytes → Activity Bytes}
      (told : { request with sender := none }.Tells object request.envelopeMembers)
      (quiet : ∀ raw, (next raw).Asks fun _ => False) :
      HandsOver transport request (.keyed key)
        (liftM (key.checkOpen >>= fun _ => key.signFields object) >>= next)
  | toNode {address : Address} {object : Dict} {next : Value → Activity Bytes}
      (told : TransactionRequest.Tells object
        { request.sentBy address with value := request.transferred })
      (quiet : ∀ reply, (next reply).Asks fun _ => False) :
      HandsOver transport request (.nodeManaged address)
        (transport.send "eth_signTransaction" [.dict object] >>= next)
  | toAgent {address : Address} {unavailable : List FailureClass} {payload : Bytes}
      {next : Value → Activity Bytes} (stands : StandsFor payload request)
      (quiet : ∀ reply, (next reply).Asks fun _ => False) :
      HandsOver transport request (.offline address unavailable)
        (replyOfAgent address unavailable (Keccak.digest payload) >>= next)
  | toNobody {address : Address} {unavailable : List FailureClass}
      (valueless : request.value = none) :
      HandsOver transport request (.offline address unavailable)
        (.done (Outcome.condition .wrongKind))

section Handover

variable (accepted : request.checkSignable = .ok ()) (addressed : request.IsAddressed)

include accepted addressed

theorem hands_over_to_key {key : SecretKey}
    (own : ∀ sender ∈ request.sender, sender = key.address) :
    HandsOver transport request (.keyed key) ((keyed key).signTransaction transport request) := by
  rcases TransactionRequest.exists_signableFor_of_checkSignable accepted with ⟨_, fee, found⟩
  have pays := (TransactionRequest.ready_of_signableFor found).pays
  have checked : (keyed key).checkSender request = .ok (request.sentBy key.address) :=
    checkSender_eq_ok accepted own
  have taken : (keyed key).signTransaction transport request =
      liftM (key.checkOpen >>= fun _ => key.signFields request.accountFields) >>= fun raw => do
        Activity.note .debug logger "Signed transaction locally"
          [("address", key.address.toValue), ("nonce", .ofNat? request.nonce),
            ("chain_id", .ofNat? request.chainId)]
        return raw := by
    rw [signTransaction, checked, liftM_bind_bind]
    rfl
  rw [taken]
  exact .toKey (TransactionRequest.tells_accountFields pays addressed.recipient) fun raw => trivial

theorem hands_over_to_node {address : Address} (size : address.octets.length = Address.length)
    (own : ∀ sender ∈ request.sender, sender = address) :
    HandsOver transport request (.nodeManaged address)
      ((nodeManaged address).signTransaction transport request) := by
  have checked : (nodeManaged address).checkSender request = .ok (request.sentBy address) :=
    checkSender_eq_ok accepted own
  have sent : (request.sentBy address).IsAddressed :=
    ⟨by rintro _ ⟨⟩; exact size, addressed.recipient⟩
  rw [signTransaction, checked]
  refine .toNode (TransactionRequest.tells_toRpc sent) fun reply => ?_
  exact Asks.bind (Asks.lift _) fun _ => trivial

theorem hands_over_to_agent {address : Address} {unavailable : List FailureClass}
    (own : ∀ sender ∈ request.sender, sender = address) :
    HandsOver transport request (.offline address unavailable)
      ((offline address unavailable).signTransaction transport request) := by
  have checked : (offline address unavailable).checkSender request =
      .ok (request.sentBy address) := checkSender_eq_ok accepted own
  rcases TransactionRequest.exists_signableFor_of_checkSignable accepted with ⟨_, fee, found⟩
  have taken : (offline address unavailable).signTransaction transport request =
      liftM request.signingDigest >>= fun digest =>
        signOffline address unavailable digest >>= fun signature =>
          liftM (request.encodeSigned signature) := by
    rw [signTransaction, checked]
    -- The sender is no part of a payload: with it filled in, the digest is that of the request.
    rfl
  rw [taken, TransactionRequest.signingDigest]
  cases hasValue : request.value with
  | none =>
      have noPayload : request.signingPayload = Outcome.condition .wrongKind := by
        simp [TransactionRequest.signingPayload, found, TransactionRequest.requireValue, hasValue]
      rw [noPayload]
      exact .toNobody hasValue
  | some value =>
      have payload := TransactionRequest.signingPayload_of_signableFor found hasValue
      have stands : StandsFor _ request := ⟨payload, fun other formed fits same =>
        TransactionRequest.sameTransaction_of_signingPayload addressed.recipient formed fits payload
          same⟩
      rw [payload]
      change HandsOver transport request _ (signOffline address unavailable _ >>= fun signature =>
        liftM (request.encodeSigned signature))
      rw [signOffline, bind_assoc]
      exact .toAgent stands fun reply =>
        Asks.bind (asks_acceptReply reply) fun signature => Asks.lift _

end Handover

/-- A signer refuses a request that is not ready, before it does anything: no key, no agent and no
node has a part in the refusal. It hands every other request over as it is. An address may be
written with its letters in either case. -/
theorem signTransaction_hands_over {fields : Dict}
    (made : TransactionRequest.ofFields fields = .ok request)
    (size : signer.address.octets.length = Address.length) :
    (IsUnready signer request → ∃ fault, (fault.kind = .validation ∨ fault.kind = .signer) ∧
        ∀ (other : Signer) (transport : Transport), other.address = signer.address →
          other.signTransaction transport request = Activity.fault fault) ∧
      (¬IsUnready signer request → ∀ transport,
        HandsOver transport request signer (signer.signTransaction transport request)) ∧
      ∀ spelled own : String, Dict.get? fields "from_address" = some (.text spelled) →
        Address.ofText? own.toList = some signer.address →
          spelled.toList.map Char.toLower = own.toList.map Char.toLower →
            request.sender = some signer.address := by
  refine ⟨signTransaction_refuses, fun ready transport => ?_, ?_⟩
  · have addressed := TransactionRequest.isAddressed_of_ofFields made
    rcases accepts_of_not_isUnready ready with ⟨accepted, own⟩
    cases signer with
    | keyed key => exact hands_over_to_key accepted addressed own
    | nodeManaged address => exact hands_over_to_node accepted addressed size own
    | offline address unavailable => exact hands_over_to_agent accepted addressed own
  · intro spelled own named written letters
    exact TransactionRequest.sender_of_sameLetters made named written letters

section Examples

open TransactionRequest (ofFields transfer sentTransfer)

def zeroAddress : Address :=
  ⟨List.replicate 20 0⟩

def otherAddress : Address :=
  ⟨List.replicate 20 1⟩

/-- A transfer of nothing that names no sender. -/
def transferFields : Dict := [
  ("to", .bytes zeroAddress.octets), ("gas", .int 21000), ("gas_price", .int 1),
  ("nonce", .int 0), ("chain_id", .int 1)]

theorem not_isUnready_transfer (signer : Signer) (value : Option Nat) :
    ¬IsUnready signer { transfer with value } := by
  intro unready
  cases unready with
  | noNonce missing => cases missing
  | noChainId missing => cases missing
  | noGas missing => cases missing
  | noFee missing => cases missing.1
  | bothFees single capped => cases capped
  | otherSender named => cases named

/-- A transfer is handed to the node, but not if somebody else sends it. -/
theorem signTransaction_hands_over_transfer :
    HandsOver .direct transfer (nodeManaged otherAddress)
        ((nodeManaged otherAddress).signTransaction .direct transfer) ∧
      ∃ fault, (fault.kind = .validation ∨ fault.kind = .signer) ∧
        (nodeManaged otherAddress).signTransaction .direct sentTransfer =
          Activity.fault fault := by
  have made : ofFields transferFields = .ok transfer := rfl
  have sent : ofFields (("from_address", .bytes zeroAddress.octets) :: transferFields) =
      .ok sentTransfer := rfl
  have size : (nodeManaged otherAddress).address.octets.length = Address.length := rfl
  have other : IsUnready (nodeManaged otherAddress) sentTransfer :=
    .otherSender rfl (by decide)
  rcases (signTransaction_hands_over sent size).1 other with ⟨fault, kind, refused⟩
  exact ⟨(signTransaction_hands_over made size).2.1 (not_isUnready_transfer _ _) .direct,
    fault, kind, refused _ .direct rfl⟩

/-- Of a request without a value there is nothing to be signed, so that no agent is asked. -/
theorem not_handed_over_without_value :
    ¬∀ (address : Address) (unavailable : List FailureClass) (transport : Transport)
        (fields : Dict) (request : TransactionRequest), ofFields fields = .ok request →
      address.octets.length = Address.length → ¬IsUnready (offline address unavailable) request →
        ∃ digest next, (offline address unavailable).signTransaction transport request =
          replyOfAgent address unavailable digest >>= next := by
  intro always
  have made : ofFields (("value", .null) :: transferFields) =
      .ok { transfer with value := none } := rfl
  rcases always otherAddress unreachable .direct _ _ made rfl (not_isUnready_transfer _ _) with
    ⟨digest, next, asked⟩
  cases asked

end Examples

end Signer

end ContractClient
