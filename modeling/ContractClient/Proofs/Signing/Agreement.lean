import ContractClient.Proofs.Bytes
import ContractClient.Proofs.Signing.Agent

/-!
# Signers agree

A signer that holds a key gives the fields of a transaction to an account, which writes and signs
them. A signer that leaves signing to an agent writes the transaction itself, and puts the signature
into it. With an agent that holds the same key both come to the same bytes
(`Signer.signTransaction_agree`): those of the request with the signature of its digest.
-/

namespace ContractClient

open Outcome

namespace TransactionRequest

/-- A transaction that pays in this way and has the given items. -/
def Fee.transaction (signable : Signable) (items : List Rlp) : Fee → FieldTransaction
  | .legacy _ => .legacy signable.chainId items
  | .dynamic _ _ => .typed dynamicFeeType items

section Fields

variable {request : TransactionRequest} {signable : Signable} {fee : Fee} {items : List Rlp}

theorem payload_transaction : (fee.transaction signable items).payload =
    fee.envelope (items ++ fee.protection signable) := by
  cases fee with
  | legacy => rfl
  | dynamic => simp [Fee.transaction, FieldTransaction.payload, Fee.envelope, Fee.protection]

theorem signedWith_transaction {raw : Secp256k1.RawSignature} :
    (fee.transaction signable items).signedWith raw =
      fee.envelope (items ++ fee.proof signable (.ofRaw raw)) := by
  cases fee with
  | legacy =>
      have sameV : raw.parity + (35 + 2 * signable.chainId) =
          (vFromRecoveryId raw.parity signable.chainId).toNat := by
        unfold vFromRecoveryId
        omega
      simp [Fee.transaction, FieldTransaction.signedWith, Fee.envelope, Fee.proof, sameV,
        Signature.ofRaw]
  | dynamic =>
      simp [Fee.transaction, FieldTransaction.signedWith, Fee.envelope, Fee.proof, Signature.ofRaw]

/-- An account reads the recipient that a request names, or that there is none. -/
theorem recipient_accountFields (formed : request.IsWellFormed) :
    FieldTransaction.recipient request.accountFields =
      .ok ((request.recipient.map Address.octets).getD []) := by
  cases named : request.recipient with
  | none =>
      have missing : Dict.get? request.accountFields "to" = none := by
        cases dynamic : request.isDynamicFee <;>
          simp [accountFields, Dict.get?, named, dynamic]
      simp [FieldTransaction.recipient, missing]
  | some address =>
      have given : Dict.get? request.accountFields "to" = some address.toValue := by
        simp [accountFields, Dict.get?, named]
      have readBack := Address.ofText?_toList_text (formed address named)
      simp [FieldTransaction.recipient, given, Address.toValue, readBack]

theorem number_of_get? {fields : Dict} {name : String} {number : Nat}
    (given : Dict.get? fields name = some (.ofNat? (some number))) :
    FieldTransaction.number fields name = .ok number := by
  simp [FieldTransaction.number, given, Value.ofNat?]

/-- An account refuses a request without a value as a transaction without one is refused. -/
theorem number_value : FieldTransaction.number request.accountFields "value" =
    request.requireValue := by
  have given : Dict.get? request.accountFields "value" = some (.ofNat? request.value) := rfl
  unfold FieldTransaction.number requireValue
  rw [given]
  cases request.value <;> rfl

/-- The fields that say how a request pays. -/
theorem get?_accountFields_legacy (way : request.isDynamicFee = false) :
    Dict.get? request.accountFields "type" = none ∧
      Dict.get? request.accountFields "gasPrice" = some (.ofNat? request.gasPrice) := by
  cases named : request.recipient <;> simp [accountFields, Dict.get?, named, way]

theorem get?_accountFields_dynamic (way : request.isDynamicFee = true) :
    Dict.get? request.accountFields "type" = some (.int 2) ∧
      Dict.get? request.accountFields "maxFeePerGas" = some (.ofNat? request.maxFeePerGas) ∧
      Dict.get? request.accountFields "maxPriorityFeePerGas" =
        some (.ofNat? request.maxPriorityFeePerGas) ∧
      Dict.get? request.accountFields "accessList" = some (.list []) := by
  cases named : request.recipient <;>
    simp [accountFields, Dict.get?, named, way, dynamicFeeType]

/-- An account reads the fields of a request as they stand in the transaction. -/
theorem ofFields_accountFields (ready : request.Ready signable fee)
    (formed : request.IsWellFormed) : FieldTransaction.ofFields request.accountFields =
      request.requireValue >>= fun value =>
        .ok (fee.transaction signable (request.items value signable fee)) := by
  have nonce : FieldTransaction.number request.accountFields "nonce" = .ok signable.nonce :=
    number_of_get? (congrArg (some ∘ Value.ofNat?) ready.nonce)
  have gas : FieldTransaction.number request.accountFields "gas" = .ok signable.gas :=
    number_of_get? (congrArg (some ∘ Value.ofNat?) ready.gas)
  have chainId : FieldTransaction.number request.accountFields "chainId" = .ok signable.chainId :=
    number_of_get? (congrArg (some ∘ Value.ofNat?) ready.chainId)
  have data : FieldTransaction.data request.accountFields = .ok request.data := rfl
  have recipient := recipient_accountFields formed
  have way := ready.pays.isDynamicFee
  cases ready.pays with
  | @legacy gasPrice price noCap noTip =>
      rcases get?_accountFields_legacy way with ⟨noType, given⟩
      have single := number_of_get? (given.trans (congrArg (some ∘ Value.ofNat?) price))
      cases required : request.requireValue <;>
        simp [FieldTransaction.ofFields, FieldTransaction.legacyItems, noType, nonce, gas, chainId,
          data, recipient, single, number_value, required, Fee.transaction, items, recipientItem]
  | dynamic noPrice cap tip =>
      rcases get?_accountFields_dynamic way with ⟨type, givenCap, givenTip, noAccess⟩
      have cap := number_of_get? (givenCap.trans (congrArg (some ∘ Value.ofNat?) cap))
      have tip := number_of_get? (givenTip.trans (congrArg (some ∘ Value.ofNat?) tip))
      have access : FieldTransaction.accessList request.accountFields = .ok [] := by
        simp [FieldTransaction.accessList, noAccess]
      cases required : request.requireValue <;>
        simp [FieldTransaction.ofFields, FieldTransaction.dynamicFeeItems, type, nonce, gas,
          chainId, data, recipient, cap, tip, access, number_value, required, Fee.transaction,
          items, recipientItem, dynamicFeeType]

end Fields

/-- The name of the sender is not part of a transaction. -/
def sentBy (request : TransactionRequest) (address : Address) : TransactionRequest :=
  { request with sender := some address }

theorem length_of_signingDigest {request : TransactionRequest} {digest : Bytes}
    (digested : request.signingDigest = .ok digest) : digest.length = Bytes.wordLength := by
  rcases bind_eq_ok_iff.mp digested with ⟨payload, _, made⟩
  cases made
  exact Keccak.length_digest payload

end TransactionRequest

namespace Secp256k1

variable {secret : Nat} {digest : Bytes}

/-- From the signature of a digest by a secret, the public key of the secret is recovered. -/
structure Recovers (secret : Nat) (digest : Bytes) : Prop where
  r_lt : (sign secret digest).r < groupOrder
  recovers : recover? (sign secret digest) digest = multipleOfGenerator? secret

theorem parity_sign : (sign secret digest).parity = 0 ∨ (sign secret digest).parity = 1 := by
  simp only [sign, signWithNonce]
  split <;> omega

theorem s_sign_lt : (sign secret digest).s < groupOrder := by
  have positive : 0 < groupOrder := by decide
  have reduced := Nat.mod_lt (inverse (nonce secret digest) groupOrder * (Bytes.toNat digest +
    ((multipleOfGenerator? (nonce secret digest)).getD ⟨0, 0⟩).x * secret)) positive
  simp only [sign, signWithNonce]
  split <;> omega

theorem ne_zero_of_recover? {signature : RawSignature} {key : Point}
    (recovered : recover? signature digest = some key) : 0 < signature.r ∧ 0 < signature.s := by
  unfold recover? at recovered
  constructor <;> refine Nat.pos_of_ne_zero fun zero => ?_
  · simp [zero] at recovered
  · simp [zero] at recovered

end Secp256k1

namespace Signature

variable {raw : Secp256k1.RawSignature} {digest : Bytes}

/-- What an agent replies that has signed. -/
def toReply (signature : Signature) : Value :=
  .tuple [.int signature.r, .int signature.s, .int signature.recoveryId]

theorem inRange_of_lt {part : Nat} (positive : 0 < part) (small : part < Secp256k1.groupOrder) :
    inRange part = true := by
  simp only [inRange, Bool.and_eq_true, decide_eq_true_eq]
  omega

theorem isValid_ofRaw (r_pos : 0 < raw.r) (r_lt : raw.r < Secp256k1.groupOrder)
    (s_pos : 0 < raw.s) (s_lt : raw.s < Secp256k1.groupOrder)
    (parity : raw.parity = 0 ∨ raw.parity = 1) : (ofRaw raw).IsValid :=
  ⟨r_pos, r_lt, s_pos, s_lt, parity⟩

/-- A signature is taken from a reply if it is one of the account. -/
theorem signatureOfReply_ofRaw {point : Secp256k1.Point} (valid : (ofRaw raw).IsValid)
    (recovered : Secp256k1.recover? raw digest = some point) :
    Signer.signatureOfReply (.ofPublicKey point.toBytes) digest (ofRaw raw).toReply =
      .ok (ofRaw raw) := by
  have made : create (.int raw.r) (.int raw.s) (.int raw.parity) = .ok (ofRaw raw) := by
    refine create_of_inside (inRange_of_lt valid.r_pos valid.r_lt)
      (inRange_of_lt valid.s_pos valid.s_lt) ?_
    exact valid.parity.imp (congrArg Int.ofNat) (congrArg Int.ofNat)
  have own : (ofRaw raw).recoverAddress digest = .ok (.ofPublicKey point.toBytes) := by
    simp [recoverAddress, recover?, ofRaw, recovered]
  exact Signer.signatureOfReply_of_own rfl made own

end Signature

namespace SecretKey

/-- A key was made of its secret; it may have been closed since. -/
def IsMade (key : SecretKey) : Prop :=
  ofSecret? key.secret = some { key with closed := false }

/-- What an agent replies that signs with a key. -/
def agentReply (key : SecretKey) (digest : Bytes) : Outcome Value :=
  (key.signDigest digest).map Signature.toReply

/-- The transaction of a request with the signature of its digest by a key. -/
def signRequest (key : SecretKey) (request : TransactionRequest) : Outcome Bytes := do
  let digest ← request.signingDigest
  request.encodeSigned (← key.signDigest digest)

variable {key : SecretKey} {request : TransactionRequest} {digest : Bytes}

theorem checkOpen_of_open (key : SecretKey) (opened : key.closed = false) :
    key.checkOpen = .ok () := by
  simp [checkOpen, opened]

theorem signDigest_of_open (opened : key.closed = false)
    (size : digest.length = Bytes.wordLength) :
    key.signDigest digest = .ok (key.signatureOf digest) := by
  simp [signDigest, size, checkOpen_of_open key opened]

theorem signDigest_of_closed (closed : key.closed = true) {signature : Signature} :
    key.signDigest digest ≠ .ok signature := by
  unfold signDigest checkOpen
  by_cases size : digest.length = Bytes.wordLength <;> simp [size, closed]

theorem IsMade.key_eq (made : key.IsMade) : ∃ point,
    Secp256k1.multipleOfGenerator? key.secret = some point ∧
      key.address = .ofPublicKey point.toBytes := by
  unfold IsMade ofSecret? at made
  split at made
  · rcases Option.map_eq_some_iff.mp made with ⟨point, found, same⟩
    exact ⟨point, found, (congrArg SecretKey.address same).symm⟩
  · cases made

/-- The signature of a key is taken from the reply of an agent that signs with it. -/
theorem signatureOfReply_signatureOf (made : key.IsMade)
    (recovers : Secp256k1.Recovers key.secret digest) :
    Signer.signatureOfReply key.address digest (key.signatureOf digest).toReply =
      .ok (key.signatureOf digest) := by
  rcases made.key_eq with ⟨point, found, own⟩
  have recovered := recovers.recovers.trans found
  have positive := Secp256k1.ne_zero_of_recover? recovered
  have valid := Signature.isValid_ofRaw positive.1 recovers.r_lt positive.2 Secp256k1.s_sign_lt
    Secp256k1.parity_sign
  rw [own]
  exact Signature.signatureOfReply_ofRaw valid recovered

/-- What a key signs of a request that is ready. -/
theorem signRequest_of_signableFor {signable : TransactionRequest.Signable}
    {fee : TransactionRequest.Fee} {value : Nat} (opened : key.closed = false)
    (found : request.signableFor = .ok (signable, fee)) (given : request.value = some value) :
    key.signRequest request = .ok (fee.envelope (request.items value signable fee ++
      fee.proof signable (key.signatureOf (Keccak.digest (fee.envelope
        (request.items value signable fee ++ fee.protection signable)))))) := by
  rw [signRequest, TransactionRequest.signingDigest,
    TransactionRequest.signingPayload_of_signableFor found given]
  simp only [ok_bind, pure_eq_ok]
  rw [signDigest_of_open opened (Keccak.length_digest _), ok_bind,
    TransactionRequest.encodeSigned_of_signableFor found given]

/-- An account writes and signs the transaction that a request asks for. -/
theorem signFields_accountFields {signer : String} (opened : key.closed = false)
    (formed : request.IsWellFormed) (accepted : request.checkSignable signer = .ok ()) :
    key.signFields request.accountFields = key.signRequest request := by
  rcases TransactionRequest.exists_signableFor_of_checkSignable accepted with
    ⟨signable, fee, found⟩
  have fields := TransactionRequest.ofFields_accountFields
    (TransactionRequest.ready_of_signableFor found) formed
  cases given : request.value with
  | none =>
      have required : request.requireValue = Outcome.condition .wrongKind := by
        simp [TransactionRequest.requireValue, given]
      simp [signFields, fields, required, signRequest, TransactionRequest.signingDigest,
        TransactionRequest.signingPayload, found]
  | some value =>
      have required := TransactionRequest.requireValue_eq_ok_iff.mpr given
      rw [signFields, fields, required, signRequest_of_signableFor opened found given]
      simp only [ok_bind, pure_eq_ok, TransactionRequest.payload_transaction,
        TransactionRequest.signedWith_transaction]
      rfl

end SecretKey

namespace Signer

open Activity

variable {key : SecretKey} {request : TransactionRequest} {transport : Transport}
  {unavailable : List FailureClass} {start stop : Rat} {labels : List Label}

section Senders

variable {signer : Signer} {name : String} (accepted : request.checkSignable name = .ok ())
  (own : ∀ sender ∈ request.sender, sender = signer.address)

include accepted own

/-- A signer takes an accepted request that names no other sender. -/
theorem checkSender_eq_ok : signer.checkSender request = .ok (request.sentBy signer.address) := by
  rcases TransactionRequest.exists_signableFor_of_checkSignable accepted with ⟨_, _, found⟩
  have ready : request.checkSignable signer.address.text = .ok () := by
    rw [TransactionRequest.checkSignable, TransactionRequest.signableFor_eq_ok_of_eq_ok found]
    rfl
  rw [checkSender, ready, ok_bind]
  cases named : request.sender with
  | none => rfl
  | some sender =>
      have same := own sender named
      subst same
      simp [TransactionRequest.sentBy, ← named]

end Senders

/-- A signer that holds a key takes the transaction from the account, unless the key is closed. -/
theorem keyed_signTransaction_inv {name : String} {ending : Ending Bytes}
    (accepted : request.checkSignable name = .ok ())
    (own : ∀ sender ∈ request.sender, sender = key.address)
    (run : Run ((keyed key).signTransaction transport request) start labels ending stop) :
    ending = .ended (key.checkOpen >>= fun _ => key.signFields request.accountFields) := by
  have checked : (keyed key).checkSender request = .ok (request.sentBy key.address) :=
    checkSender_eq_ok accepted own
  rw [signTransaction, checked] at run
  rcases Run.lift_bind_inv run with ⟨_, ⟨⟩, run⟩ | ⟨_, ⟨⟩, _⟩
  rcases Run.lift_bind_inv run with ⟨_, opened, run⟩ | ⟨failure, closed, _, ended⟩
  · rw [opened, ok_bind]
    rcases Run.lift_bind_inv run with ⟨raw, signed, run⟩ | ⟨failure, refused, _, ended⟩
    · rcases Run.emit_bind_inv run with ⟨after, last, _⟩
      rcases Run.done_inv last with ⟨_, ended, _⟩
      exact ended.trans (congrArg Ending.ended signed.symm)
    · exact ended.trans (congrArg Ending.ended refused.symm)
  · rw [closed]
    exact ended

section Agents

variable (made : key.IsMade)

include made

/-- An agent with the same key gives the signature of the key, unless the key is closed. -/
theorem signOffline_of_answered {digest : Bytes} {ending : Ending Signature}
    (size : digest.length = Bytes.wordLength) (recovers : Secp256k1.Recovers key.secret digest)
    (run : Run (signOffline key.address unavailable digest) start labels ending stop)
    (answered : ∀ call ∈ agentCalls labels, call.reply = some (key.agentReply call.digest)) :
    (key.closed = false → ending = .ended (.ok (key.signatureOf digest))) ∧
      (key.closed = true → ending.NoResult) := by
  have replied : ∀ reply, agentCalls labels = [⟨digest, reply⟩] →
      reply = some (key.agentReply digest) := by
    intro reply called
    exact answered ⟨digest, reply⟩ (called ▸ List.mem_singleton_self _)
  have reply_of_open : key.closed = false →
      key.agentReply digest = .ok (key.signatureOf digest).toReply := by
    intro opened
    rw [SecretKey.agentReply, SecretKey.signDigest_of_open opened size]
    rfl
  rcases signOffline_inv run with ⟨called, _⟩ | ⟨failure, outcome, called, rfl, contained⟩ |
    ⟨reply, middle, after, called, accepts⟩
  · cases replied _ called
  · have same := Option.some.inj (replied _ called)
    refine ⟨fun opened => ?_, fun _ => ?_⟩
    · rw [reply_of_open opened] at same
      cases same
    · intro result ended
      cases ended
      cases contained
  · have same := Option.some.inj (replied _ called)
    refine ⟨fun opened => ?_, fun closed => ?_⟩
    · rw [reply_of_open opened, Except.ok.injEq] at same
      subst same
      have given : partsOfReply (key.signatureOf digest).toReply = some (_, _, _) := rfl
      rw [acceptReply_of_parts given,
        SecretKey.signatureOfReply_signatureOf made recovers] at accepts
      exact (Run.done_inv accepts).2.1
    · cases signed : key.signDigest digest with
      | error failure =>
          rw [SecretKey.agentReply, signed] at same
          cases same
      | ok signature => exact absurd signed (SecretKey.signDigest_of_closed closed)

/-- A signer that has an agent with the same key sign comes to the request with the signature of its
digest, unless the key is closed. -/
theorem offline_signTransaction_inv {name : String} {ending : Ending Bytes}
    (accepted : request.checkSignable name = .ok ())
    (own : ∀ sender ∈ request.sender, sender = key.address)
    (recovers : ∀ digest, request.signingDigest = .ok digest →
      Secp256k1.Recovers key.secret digest)
    (run : Run ((offline key.address unavailable).signTransaction transport request) start labels
      ending stop)
    (answered : ∀ call ∈ agentCalls labels, call.reply = some (key.agentReply call.digest)) :
    (key.closed = false → ending = .ended (key.signRequest request)) ∧
      (key.closed = true → ending.NoResult) := by
  have checked : (offline key.address unavailable).checkSender request =
      .ok (request.sentBy key.address) := checkSender_eq_ok accepted own
  rw [signTransaction, checked] at run
  rcases Run.lift_bind_inv run with ⟨_, ⟨⟩, run⟩ | ⟨_, ⟨⟩, _⟩
  rcases Run.lift_bind_inv run with ⟨digest, digested, run⟩ | ⟨failure, refused, _, rfl⟩
  · have digested : request.signingDigest = .ok digest := digested
    have size := request.length_of_signingDigest digested
    rcases Run.bind_inv run with
      ⟨signature, before, middle, after, signs, encodes, rfl⟩ | ⟨early, signs, abandons⟩
    · have answeredBefore : ∀ call ∈ agentCalls before,
          call.reply = some (key.agentReply call.digest) := by
        intro call member
        refine answered call ?_
        rw [agentCalls_append]
        exact List.mem_append_left _ member
      rcases signOffline_of_answered made size (recovers digest digested) signs answeredBefore with
        ⟨ofOpen, ofClosed⟩
      refine ⟨fun opened => ?_, fun closed => absurd rfl (ofClosed closed signature)⟩
      cases ofOpen opened
      rw [SecretKey.signRequest, digested, ok_bind, SecretKey.signDigest_of_open opened size]
      exact (Run.done_inv encodes).2.1
    · rcases signOffline_of_answered made size (recovers digest digested) signs answered with
        ⟨ofOpen, _⟩
      exact ⟨fun opened => absurd (ofOpen opened) (abandons.noResult_early _),
        fun _ => abandons.noResult⟩
  · have refused : request.signingDigest = .error failure := refused
    refine ⟨fun _ => ?_, fun _ => Ending.noResult_error⟩
    rw [SecretKey.signRequest, refused]
    rfl

end Agents

section Possible

variable {name : String} {raw : Bytes} (opened : key.closed = false)
  (accepted : request.checkSignable name = .ok ())
  (own : ∀ sender ∈ request.sender, sender = key.address)
  (signed : key.signRequest request = .ok raw)

include opened accepted own signed

/-- A signer with an open key signs. -/
theorem exists_keyed_run (formed : request.IsWellFormed) : ∃ labels,
    Run ((keyed key).signTransaction transport request) 0 labels (.ended (.ok raw)) 0 := by
  have checked : (keyed key).checkSender request = .ok (request.sentBy key.address) :=
    checkSender_eq_ok accepted own
  have fields := (SecretKey.signFields_accountFields opened formed accepted).trans signed
  exact ⟨_, .lift_bind checked (.lift_bind (key.checkOpen_of_open opened)
    (.lift_bind fields (.tell .done)))⟩

/-- A signer signs whose agent replies at once with the signature of a key. -/
theorem exists_offline_run {digest : Bytes} (made : key.IsMade)
    (digested : request.signingDigest = .ok digest)
    (recovers : Secp256k1.Recovers key.secret digest) : ∃ labels,
    Run ((offline key.address unavailable).signTransaction transport request) 0 labels
      (.ended (.ok raw)) 0 ∧
        agentCalls labels = [⟨digest, some (key.agentReply digest)⟩] := by
  have checked : (offline key.address unavailable).checkSender request =
      .ok (request.sentBy key.address) := checkSender_eq_ok accepted own
  have signs := SecretKey.signDigest_of_open opened (request.length_of_signingDigest digested)
  have given : partsOfReply (key.signatureOf digest).toReply = some (_, _, _) := rfl
  have asks : Run (signOffline key.address unavailable digest) 0 _ _ 0 :=
    signDigest_run given (SecretKey.signatureOfReply_signatureOf made recovers)
  rw [SecretKey.signRequest, digested, ok_bind, signs, ok_bind] at signed
  have encodes : Run (liftM (request.encodeSigned (key.signatureOf digest)) : Activity Bytes) 0 []
      (.ended (.ok raw)) 0 := by
    rw [signed]
    exact .done
  refine ⟨_, .lift_bind checked (.lift_bind digested (Run.andThen asks encodes)), ?_⟩
  rw [SecretKey.agentReply, signs]
  rfl

end Possible

/-- **Signers agree.** For a request that is accepted and names no other sender, a signer that holds
a key and one whose agent signs with the same key both come to the request with the signature of its
digest: to its bytes, if the request has a value. With a closed key nobody comes to any bytes. -/
theorem signTransaction_agree {name : String} {agentTransport : Transport}
    {agentStart agentStop : Rat} {agentLabels : List Label} {ending agentEnding : Ending Bytes}
    (made : key.IsMade) (formed : request.IsWellFormed)
    (accepted : request.checkSignable name = .ok ())
    (own : ∀ sender ∈ request.sender, sender = key.address)
    (recovers : ∀ digest, request.signingDigest = .ok digest →
      Secp256k1.Recovers key.secret digest)
    (run : Run ((keyed key).signTransaction transport request) start labels ending stop)
    (agentRun : Run ((offline key.address unavailable).signTransaction agentTransport request)
      agentStart agentLabels agentEnding agentStop)
    (answered : ∀ call ∈ agentCalls agentLabels, call.reply = some (key.agentReply call.digest)) :
    (key.closed = false →
        ending = .ended (key.signRequest request) ∧
          agentEnding = .ended (key.signRequest request) ∧
            (request.value.isSome = true → ∃ raw, key.signRequest request = .ok raw)) ∧
      (key.closed = true →
        ending.NoResult ∧ agentEnding.NoResult ∧ ∀ raw, key.signRequest request ≠ .ok raw) := by
  have ended := keyed_signTransaction_inv accepted own run
  rcases offline_signTransaction_inv made accepted own recovers agentRun answered with
    ⟨ofOpen, ofClosed⟩
  refine ⟨fun opened => ⟨?_, ofOpen opened, fun hasValue => ?_⟩,
    fun closed => ⟨?_, ofClosed closed, fun raw signed => ?_⟩⟩
  · rw [ended, key.checkOpen_of_open opened, ok_bind,
      SecretKey.signFields_accountFields opened formed accepted]
  · rcases TransactionRequest.exists_signableFor_of_checkSignable accepted with ⟨_, _, found⟩
    rcases Option.isSome_iff_exists.mp hasValue with ⟨value, given⟩
    exact ⟨_, SecretKey.signRequest_of_signableFor opened found given⟩
  · rw [ended, SecretKey.checkOpen, if_pos closed]
    exact Ending.noResult_error
  · rcases bind_eq_ok_iff.mp signed with ⟨digest, _, signed⟩
    rcases bind_eq_ok_iff.mp signed with ⟨signature, signed, _⟩
    exact SecretKey.signDigest_of_closed closed signed

section Examples

open Secp256k1

/-- The key whose public key is the generator of the curve. -/
def unitKey : SecretKey :=
  { secret := 1, address := generatorAddress }

def transferPayload : Bytes := [
  223, 128, 1, 130, 82, 8, 148, 0, 0, 0, 0, 0, 0, 0, 0, 0, 0, 0, 0, 0, 0, 0, 0, 0, 0, 0, 0, 128,
  128, 1, 128, 128]

def transferDigest : Bytes := [
  100, 210, 32, 197, 232, 217, 255, 84, 233, 56, 9, 173, 251, 129, 147, 88, 216, 122, 49, 90, 181,
  111, 73, 12, 83, 210, 5, 185, 57, 68, 64, 143]

def transferNonce : Nat :=
  103763923621337476103293948076749173275645536648841154286225025808870543320636

/-- The point that the nonce of the transfer gives. -/
def ephemeral : Point where
  x := 35370116944665631857775220170349709249328697403149930157239902143316383364442
  y := 77628150794147743805917442683043885722174828115000704267342053791085391684272

def transferSignature : RawSignature where
  r := ephemeral.x
  s := 22468783286930587445847004541255193002463068563978759401160187803368481693881
  parity := 0

/-- The part of the digest in the public key, and the part of the signature. -/
def digestPart : Projective where
  x := 53264812894094335135018277397428252887951018040890647430832761648944099670426
  y := 94930950687498012397277746771367032094068435450898775915070896441799672231030
  z := 37718048529317859598133660685315700182424453267775465824053122889294310007401

def signaturePart : Projective where
  x := 64576317946601346179617652214327819037006667412008446227239667748256335355464
  y := 14223722742068826233038388153421722347726285207357497459393895824114418348224
  z := 35848766798374724845215528311743054559637200102127767715567988538763822459303

/-- The points on the way from the nonce of the transfer to its signature, and back to the key. -/
theorem points_transfer :
    multipleOfGenerator? 1 = some generator ∧
    signWithNonce 1 transferNonce transferDigest = transferSignature ∧
    lift? transferSignature.r transferSignature.parity = some ephemeral ∧
    Projective.multiply ((groupOrder - Bytes.toNat transferDigest % groupOrder) % groupOrder)
      (.ofPoint generator) = digestPart ∧
    Projective.multiply transferSignature.s (.ofPoint ephemeral) = signaturePart ∧
    (Projective.multiply (inverse transferSignature.r groupOrder)
      (digestPart.add signaturePart)).toPoint? = some generator := by
  decide +kernel

theorem unitKey_isMade : unitKey.IsMade := by
  have inside : 0 < 1 ∧ 1 < groupOrder := by decide
  simp [SecretKey.IsMade, SecretKey.ofSecret?, unitKey, inside, points_transfer.1,
    generatorAddress]

theorem recover?_transfer : recover? transferSignature transferDigest = some generator := by
  have remains : transferSignature.r % groupOrder ≠ 0 ∧ transferSignature.s % groupOrder ≠ 0 := by
    decide
  rcases points_transfer with ⟨_, _, lifted, digestMultiple, signatureMultiple, key⟩
  simp [recover?, remains, lifted, digestMultiple, signatureMultiple, key]

theorem nonce_transfer : nonce 1 transferDigest = transferNonce := by
  decide +kernel

theorem sign_transfer : sign 1 transferDigest = transferSignature := by
  rw [sign, nonce_transfer, points_transfer.2.1]

theorem recovers_transfer : Recovers 1 transferDigest := by
  have small : transferSignature.r < groupOrder := by decide
  exact ⟨by rwa [sign_transfer], by rw [sign_transfer, recover?_transfer, points_transfer.1]⟩

theorem digest_transferPayload : Keccak.digest transferPayload = transferDigest := by
  decide +kernel

theorem signingDigest_transfer :
    TransactionRequest.transfer.signingDigest = .ok transferDigest := by
  have payload : TransactionRequest.transfer.signingPayload = .ok transferPayload := rfl
  rw [TransactionRequest.signingDigest, payload, ← digest_transferPayload]
  rfl

/-- A key and an agent that signs with it make the same signed transfer. -/
theorem signTransaction_agree_transfer : ∃ raw labels agentLabels ending agentEnding,
    Run ((keyed unitKey).signTransaction .direct TransactionRequest.transfer) 0 labels ending 0 ∧
    Run ((offline unitKey.address unreachable).signTransaction .direct
      TransactionRequest.transfer) 0 agentLabels agentEnding 0 ∧
    ending = .ended (.ok raw) ∧ agentEnding = .ended (.ok raw) ∧
      unitKey.signRequest TransactionRequest.transfer = .ok raw := by
  have formed := TransactionRequest.transfer_isWellFormed
  have accepted : TransactionRequest.transfer.checkSignable = .ok () := rfl
  have own : ∀ sender ∈ TransactionRequest.transfer.sender, sender = unitKey.address := nofun
  have recovers : ∀ digest, TransactionRequest.transfer.signingDigest = .ok digest →
      Recovers unitKey.secret digest := by
    intro digest digested
    rw [signingDigest_transfer] at digested
    cases digested
    exact recovers_transfer
  have signed : unitKey.signRequest TransactionRequest.transfer = .ok _ :=
    SecretKey.signRequest_of_signableFor rfl rfl rfl
  rcases exists_keyed_run rfl accepted own signed formed with ⟨labels, run⟩
  rcases exists_offline_run rfl accepted own signed unitKey_isMade signingDigest_transfer
    recovers_transfer with ⟨agentLabels, agentRun, called⟩
  have answered : ∀ call ∈ agentCalls agentLabels,
      call.reply = some (unitKey.agentReply call.digest) := by
    intro call member
    rw [called, List.mem_singleton] at member
    rw [member]
  rcases (signTransaction_agree unitKey_isMade formed accepted own recovers run agentRun
    answered).1 rfl with ⟨ended, agentEnded, _⟩
  exact ⟨_, labels, agentLabels, _, _, run, agentRun, ended.trans (congrArg _ signed),
    agentEnded.trans (congrArg _ signed), signed⟩

end Examples

end Signer

end ContractClient
