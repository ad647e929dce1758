import ContractClient.Proofs.Outcome
import ContractClient.Proofs.Rlp
import ContractClient.Transaction.Envelope

/-!
# What is signed

The bytes that are signed determine the transaction: requests with the same payload agree on
everything but the sender, and signed transactions that are equal also agree on the signature. No
payload is a signed transaction (`TransactionRequest.signed_as_asked`). A request must have a value
for this: one without a value is not refused, but cannot be written
(`TransactionRequest.not_signed_without_value`).
-/

namespace ContractClient

open Outcome

namespace Signature

/-- The parts of a signature are in range, and the recovery id is a parity. -/
structure IsValid (signature : Signature) : Prop where
  r_pos : 0 < signature.r
  r_lt : signature.r < Secp256k1.groupOrder
  s_pos : 0 < signature.s
  s_lt : signature.s < Secp256k1.groupOrder
  parity : signature.recoveryId = 0 ∨ signature.recoveryId = 1

theorem toNat_of_inRange {part : Int} (inside : inRange part = true) :
    0 < part.toNat ∧ part.toNat < Secp256k1.groupOrder := by
  simp only [inRange, Bool.and_eq_true, decide_eq_true_eq] at inside
  omega

theorem isValid_of_create {r s recoveryId : Value} {signature : Signature}
    (made : create r s recoveryId = .ok signature) : signature.IsValid := by
  unfold create at made
  simp only [bind_eq_ok_iff, fault_bind, condition_bind, refuse_fault_eq_ok_iff,
    Bool.not_eq_true', Bool.not_eq_false] at made
  rcases made with ⟨first, _, firstInside, second, _, secondInside, made⟩
  have firstRange := toNat_of_inRange firstInside
  have secondRange := toNat_of_inRange secondInside
  have valid : ∀ parity isNumeric, parity = 0 ∨ parity = 1 →
      (⟨first.toNat, second.toNat, parity, isNumeric⟩ : Signature).IsValid :=
    fun _ _ parity => ⟨firstRange.1, firstRange.2, secondRange.1, secondRange.2, parity⟩
  split at made
  · simp only [pure_eq_ok, ok_bind, refuse_condition_eq_ok_iff, Except.ok.injEq] at made
    rcases made with ⟨_, _, rfl⟩
    exact valid 0 _ (Or.inl rfl)
  · split at made
    · simp only [pure_eq_ok, ok_bind, refuse_condition_eq_ok_iff, Except.ok.injEq] at made
      rcases made with ⟨_, _, rfl⟩
      exact valid 1 _ (Or.inr rfl)
    · rcases bind_eq_ok_iff.mp made with ⟨text, _, refused⟩
      exact absurd refused fault_ne_ok

end Signature

theorem Address.length_of_ofValue {value : Value} {name : String} {address : Address}
    (read : Address.ofValue value name = .ok address) : address.octets.length = Address.length := by
  have ofBytes : ∀ octets, Address.ofValue.ofBytes name octets = .ok address →
      address.octets.length = Address.length := by
    intro octets made
    rw [Address.ofValue.ofBytes] at made
    split at made
    · next size =>
        cases made
        exact size
    · cases made
  cases value with
  | bytes octets => exact ofBytes octets read
  | buffer octets => exact ofBytes octets read
  | text characters =>
      rw [Address.ofValue] at read
      split at read
      · next found =>
          cases read
          exact length_of_ofText? found
      · cases read
  | _ => cases read

namespace TransactionRequest

/-- The recipient, if there is one, is an address of twenty bytes. -/
def IsWellFormed (request : TransactionRequest) : Prop :=
  ∀ recipient ∈ request.recipient, recipient.octets.length = Address.length

theorem length_of_addressField {name : String} {value : Value} {field : Option Address}
    (read : addressField name value = .ok field) :
    ∀ address ∈ field, address.octets.length = Address.length := by
  rintro address rfl
  unfold addressField at read
  split at read
  · cases read
  · cases found : Address.ofValue value name with
    | error failure => simp [found, Except.map] at read
    | ok address =>
        simp only [found, Except.map, Except.ok.injEq, Option.some.injEq] at read
        exact read ▸ Address.length_of_ofValue found

theorem isWellFormed_of_ofFields {fields : Dict} {request : TransactionRequest}
    (made : ofFields fields = .ok request) : request.IsWellFormed := by
  unfold ofFields at made
  simp only [bind_eq_ok_iff, condition_bind, refuse_condition_eq_ok_iff, pure_eq_ok,
    Except.ok.injEq] at made
  rcases made with ⟨_, _, _, recipient, read, _, _, _, _, _, _, _, _, _, _, _, _, _, _, _, _, rfl⟩
  exact length_of_addressField read

section Ready

variable {request : TransactionRequest} {signable : Signable} {fee : Fee} {value : Nat}
  {signature : Signature} {octets : Bytes}

/-- How a request pays. It names the fees of one way only, and all of them. -/
inductive Pays (request : TransactionRequest) : Fee → Prop where
  | legacy {gasPrice : Nat} (price : request.gasPrice = some gasPrice)
      (noCap : request.maxFeePerGas = none) (noTip : request.maxPriorityFeePerGas = none) :
      Pays request (.legacy gasPrice)
  | dynamic {maxFeePerGas maxPriorityFeePerGas : Nat} (noPrice : request.gasPrice = none)
      (cap : request.maxFeePerGas = some maxFeePerGas)
      (tip : request.maxPriorityFeePerGas = some maxPriorityFeePerGas) :
      Pays request (.dynamic maxFeePerGas maxPriorityFeePerGas)

/-- A request has everything that a signed transaction needs. -/
structure Ready (request : TransactionRequest) (signable : Signable) (fee : Fee) : Prop where
  nonce : request.nonce = some signable.nonce
  chainId : request.chainId = some signable.chainId
  gas : request.gas = some signable.gas
  pays : request.Pays fee

theorem requireField_eq_ok_iff {α : Type} {name signer : String} {field : Option α} {result : α} :
    requireField name signer field = .ok result ↔ field = some result := by
  cases field <;> simp [requireField]

theorem ready_of_signableFor {signer : String}
    (found : request.signableFor signer = .ok (signable, fee)) : request.Ready signable fee := by
  unfold signableFor feeFor at found
  simp only [bind_eq_ok_iff, requireField_eq_ok_iff, pure_eq_ok, Except.ok.injEq,
    Prod.mk.injEq] at found
  rcases found with ⟨_, oneModel, nonce, hasNonce, chainId, hasChainId, gas, hasGas, _, pays, rfl,
    rfl⟩
  refine ⟨hasNonce, hasChainId, hasGas, ?_⟩
  rw [checkFeeModel, refuse_fault_eq_ok_iff] at oneModel
  split at pays
  · next dynamic =>
      simp only [bind_eq_ok_iff, requireField_eq_ok_iff, Except.ok.injEq] at pays
      rcases pays with ⟨cap, hasCap, tip, hasTip, rfl⟩
      have noPrice : request.gasPrice = none := by
        simpa [dynamic, hasLegacyFee] using oneModel.1
      exact .dynamic noPrice hasCap hasTip
  · next legacy =>
      simp only [bind_eq_ok_iff, requireField_eq_ok_iff, Except.ok.injEq] at pays
      rcases pays with ⟨price, hasPrice, rfl⟩
      have others : request.maxFeePerGas = none ∧ request.maxPriorityFeePerGas = none := by
        simpa [hasDynamicFee] using legacy
      exact .legacy hasPrice others.1 others.2

/-- The name of the signer is for messages only. -/
theorem signableFor_eq_ok_of_eq_ok {signer other : String} {ready : Signable × Fee}
    (found : request.signableFor signer = .ok ready) : request.signableFor other = .ok ready := by
  cases way : request.hasDynamicFee <;>
    simpa [signableFor, feeFor, way, bind_eq_ok_iff, requireField_eq_ok_iff] using found

theorem requireValue_eq_ok_iff : request.requireValue = .ok value ↔ request.value = some value := by
  unfold requireValue
  split <;> simp [*]

end Ready

/-- Whether a transaction that pays in this way stands behind the byte of its type. -/
def Fee.isDynamic : Fee → Bool
  | .legacy _ => false
  | .dynamic _ _ => true

/-- A transaction that consists of the given items. -/
def Fee.envelope (items : List Rlp) : Fee → Bytes
  | .legacy _ => (Rlp.list items).encode
  | .dynamic _ _ => dynamicFeeType :: (Rlp.list items).encode

/-- What stands behind the fields of a transaction when it is signed. -/
def Fee.protection (signable : Signable) : Fee → List Rlp
  | .legacy _ => [.nat signable.chainId, .nat 0, .nat 0]
  | .dynamic _ _ => []

/-- What stands behind the fields of a signed transaction. -/
def Fee.proof (signable : Signable) (signature : Signature) : Fee → List Rlp
  | .legacy _ => [
    .nat (vFromRecoveryId signature.recoveryId signable.chainId).toNat, .nat signature.r,
    .nat signature.s]
  | .dynamic _ _ => [.nat signature.recoveryId, .nat signature.r, .nat signature.s]

section Envelopes

variable {request : TransactionRequest} {signable : Signable} {fee : Fee} {value : Nat}
  {signature : Signature} {octets : Bytes}

theorem exists_signableFor_of_checkSignable {signer : String}
    (accepted : request.checkSignable signer = .ok ()) :
    ∃ signable fee, request.signableFor = .ok (signable, fee) := by
  unfold checkSignable at accepted
  cases found : request.signableFor signer with
  | error failure =>
      rw [found] at accepted
      cases accepted
  | ok ready => exact ⟨ready.1, ready.2, signableFor_eq_ok_of_eq_ok found⟩

theorem signingPayload_of_signableFor (found : request.signableFor = .ok (signable, fee))
    (hasValue : request.value = some value) : request.signingPayload =
      .ok (fee.envelope (request.items value signable fee ++ fee.protection signable)) := by
  have required := requireValue_eq_ok_iff.mpr hasValue
  cases fee <;> simp [signingPayload, found, required, Fee.envelope, Fee.protection, items]

theorem encodeSigned_of_signableFor (found : request.signableFor = .ok (signable, fee))
    (hasValue : request.value = some value) : request.encodeSigned signature =
      .ok (fee.envelope (request.items value signable fee ++ fee.proof signable signature)) := by
  have required := requireValue_eq_ok_iff.mpr hasValue
  cases fee <;> simp [encodeSigned, found, required, Fee.envelope, Fee.proof]

theorem signingPayload_inv (made : request.signingPayload = .ok octets) :
    ∃ signable fee value, request.Ready signable fee ∧ request.value = some value ∧
      fee.envelope (request.items value signable fee ++ fee.protection signable) = octets := by
  have found := made
  simp only [signingPayload, bind_eq_ok_iff, requireValue_eq_ok_iff, Prod.exists] at found
  rcases found with ⟨signable, fee, found, value, hasValue, _⟩
  rw [signingPayload_of_signableFor found hasValue, Except.ok.injEq] at made
  exact ⟨signable, fee, value, ready_of_signableFor found, hasValue, made⟩

theorem encodeSigned_inv (made : request.encodeSigned signature = .ok octets) :
    ∃ signable fee value, request.Ready signable fee ∧ request.value = some value ∧
      fee.envelope (request.items value signable fee ++ fee.proof signable signature) = octets := by
  have found := made
  simp only [encodeSigned, bind_eq_ok_iff, requireValue_eq_ok_iff, Prod.exists] at found
  rcases found with ⟨signable, fee, found, value, hasValue, _⟩
  rw [encodeSigned_of_signableFor found hasValue, Except.ok.injEq] at made
  exact ⟨signable, fee, value, ready_of_signableFor found, hasValue, made⟩

end Envelopes

/-- Requests that ask for the same transaction: they differ at most in the sender. -/
structure SameTransaction (first second : TransactionRequest) : Prop where
  isDynamicFee : first.isDynamicFee = second.isDynamicFee
  chainId : first.chainId = second.chainId
  nonce : first.nonce = second.nonce
  gas : first.gas = second.gas
  recipient : first.recipient = second.recipient
  value : first.value = second.value
  data : first.data = second.data
  gasPrice : first.gasPrice = second.gasPrice
  maxFeePerGas : first.maxFeePerGas = second.maxFeePerGas
  maxPriorityFeePerGas : first.maxPriorityFeePerGas = second.maxPriorityFeePerGas

section Equal

variable {first second : TransactionRequest} {firstSignable secondSignable : Signable}
  {firstFee secondFee : Fee} {firstValue secondValue : Nat} {firstItems secondItems : List Rlp}
  {firstRest secondRest : List Rlp}

/-- An envelope shows the way to pay and what is inside. -/
theorem envelope_inj (fits : (firstFee.envelope firstItems).length < Rlp.lengthLimit)
    (same : firstFee.envelope firstItems = secondFee.envelope secondItems) :
    firstFee.isDynamic = secondFee.isDynamic ∧ firstItems = secondItems := by
  have otherFits := same ▸ fits
  cases firstFee with
  | legacy =>
      cases secondFee with
      | legacy => exact ⟨rfl, Rlp.encode_list_inj fits same⟩
      | dynamic => exact absurd same.symm (Rlp.encode_list_ne_cons fits (by decide))
  | dynamic =>
      cases secondFee with
      | legacy => exact absurd same (Rlp.encode_list_ne_cons otherFits (by decide))
      | dynamic =>
          simp only [Fee.envelope, List.length_cons] at fits
          exact ⟨rfl, Rlp.encode_list_inj (by omega) (List.cons.inj same).2⟩

theorem recipient_eq_of_recipientItem_eq (firstFormed : first.IsWellFormed)
    (secondFormed : second.IsWellFormed) (same : first.recipientItem = second.recipientItem) :
    first.recipient = second.recipient := by
  -- The empty string that stands for no recipient is no address.
  have notEmpty : ∀ address : Address, address.octets.length = Address.length →
      address.octets ≠ [] := by
    intro address size empty
    rw [empty] at size
    cases size
  have sameOctets := Rlp.string.inj same
  cases firstRecipient : first.recipient with
  | none =>
      cases secondRecipient : second.recipient with
      | none => rfl
      | some address =>
          rw [firstRecipient, secondRecipient] at sameOctets
          exact absurd sameOctets.symm (notEmpty address (secondFormed address secondRecipient))
  | some address =>
      cases secondRecipient : second.recipient with
      | none =>
          rw [firstRecipient, secondRecipient] at sameOctets
          exact absurd sameOctets (notEmpty address (firstFormed address firstRecipient))
      | some other =>
          rw [firstRecipient, secondRecipient] at sameOctets
          exact congrArg (some ∘ Address.mk) sameOctets

/-- The fields that were written and what stands behind them. A transaction with a single gas price
does not have its chain id among its fields. -/
structure SameFields (first second : TransactionRequest) (firstSignable secondSignable : Signable)
    (firstFee secondFee : Fee) (firstValue secondValue : Nat) (firstRest secondRest : List Rlp) :
    Prop where
  fee : firstFee = secondFee
  chainId : firstFee.isDynamic = true → firstSignable.chainId = secondSignable.chainId
  nonce : firstSignable.nonce = secondSignable.nonce
  gas : firstSignable.gas = secondSignable.gas
  recipient : first.recipientItem = second.recipientItem
  value : firstValue = secondValue
  data : first.data = second.data
  rest : firstRest = secondRest

theorem items_append_inj (sameWay : firstFee.isDynamic = secondFee.isDynamic)
    (same : first.items firstValue firstSignable firstFee ++ firstRest =
      second.items secondValue secondSignable secondFee ++ secondRest) :
    SameFields first second firstSignable secondSignable firstFee secondFee firstValue secondValue
      firstRest secondRest := by
  cases firstFee with
  | legacy price =>
      cases secondFee with
      | dynamic => cases sameWay
      | legacy other =>
          simp only [items, List.cons_append, List.nil_append, List.cons.injEq,
            Rlp.string.injEq] at same
          rcases same with ⟨nonce, price, gas, recipient, value, data, rest⟩
          exact ⟨congrArg _ (Rlp.nat_inj price), nofun, Rlp.nat_inj nonce, Rlp.nat_inj gas,
            recipient, Rlp.nat_inj value, data, rest⟩
  | dynamic cap tip =>
      cases secondFee with
      | legacy => cases sameWay
      | dynamic otherCap otherTip =>
          simp only [items, List.cons_append, List.nil_append, List.cons.injEq,
            Rlp.string.injEq, true_and] at same
          rcases same with ⟨chainId, nonce, sameTip, sameCap, gas, recipient, value, data, rest⟩
          have sameFee : Fee.dynamic cap tip = .dynamic otherCap otherTip := by
            rw [Rlp.nat_inj sameCap, Rlp.nat_inj sameTip]
          exact ⟨sameFee, fun _ => Rlp.nat_inj chainId, Rlp.nat_inj nonce, Rlp.nat_inj gas,
            recipient, Rlp.nat_inj value, data, rest⟩

theorem sameFields_of_envelope {octets : Bytes} (fits : octets.length < Rlp.lengthLimit)
    (firstMade : firstFee.envelope
      (first.items firstValue firstSignable firstFee ++ firstRest) = octets)
    (secondMade : secondFee.envelope
      (second.items secondValue secondSignable secondFee ++ secondRest) = octets) :
    SameFields first second firstSignable secondSignable firstFee secondFee firstValue secondValue
      firstRest secondRest := by
  rcases envelope_inj (firstMade ▸ fits) (firstMade.trans secondMade.symm) with ⟨sameWay, sameItems⟩
  exact items_append_inj sameWay sameItems

theorem protection_inj {fee : Fee} (legacy : fee.isDynamic = false)
    (same : fee.protection firstSignable = fee.protection secondSignable) :
    firstSignable.chainId = secondSignable.chainId := by
  cases fee with
  | dynamic => cases legacy
  | legacy price => exact Rlp.nat_inj (List.cons.inj same).1

theorem vFromRecoveryId_inj {recoveryId otherId chainId otherChain : Nat}
    (parity : recoveryId = 0 ∨ recoveryId = 1) (otherParity : otherId = 0 ∨ otherId = 1)
    (same : (vFromRecoveryId recoveryId chainId).toNat =
      (vFromRecoveryId otherId otherChain).toNat) :
    chainId = otherChain ∧ recoveryId = otherId := by
  unfold vFromRecoveryId at same
  omega

/-- The proof of a signed transaction shows the signature and, with a single gas price, the
chain id. -/
theorem proof_inj {fee : Fee} {signature other : Signature} (valid : signature.IsValid)
    (otherValid : other.IsValid)
    (same : fee.proof firstSignable signature = fee.proof secondSignable other) :
    (fee.isDynamic = false → firstSignable.chainId = secondSignable.chainId) ∧
      signature.recoveryId = other.recoveryId ∧ signature.r = other.r ∧ signature.s = other.s := by
  cases fee with
  | legacy price =>
      simp only [Fee.proof, List.cons.injEq, and_true] at same
      rcases same with ⟨sameV, sameR, sameS⟩
      rcases vFromRecoveryId_inj valid.parity otherValid.parity (Rlp.nat_inj sameV) with
        ⟨sameChain, sameParity⟩
      exact ⟨fun _ => sameChain, sameParity, Rlp.nat_inj sameR, Rlp.nat_inj sameS⟩
  | dynamic cap tip =>
      simp only [Fee.proof, List.cons.injEq, and_true] at same
      exact ⟨nofun, Rlp.nat_inj same.1, Rlp.nat_inj same.2.1, Rlp.nat_inj same.2.2⟩

theorem protection_ne_proof {fee : Fee} {signature : Signature} (valid : signature.IsValid) :
    fee.protection firstSignable ≠ fee.proof secondSignable signature := by
  have positive := valid.s_pos
  intro same
  cases fee with
  | legacy price =>
      simp only [Fee.protection, Fee.proof, List.cons.injEq, and_true] at same
      have zero := Rlp.nat_inj same.2.2
      omega
  | dynamic cap tip => cases same

theorem Pays.isDynamicFee {request : TransactionRequest} {fee : Fee} (pays : request.Pays fee) :
    request.isDynamicFee = fee.isDynamic := by
  cases pays with
  | legacy price noCap noTip =>
      simp [TransactionRequest.isDynamicFee, hasDynamicFee, noCap, noTip, Fee.isDynamic]
  | dynamic noPrice cap tip =>
      simp [TransactionRequest.isDynamicFee, hasDynamicFee, hasLegacyFee, noPrice, cap,
        Fee.isDynamic]

theorem Pays.fields_eq {fee : Fee} (firstPays : first.Pays fee) (secondPays : second.Pays fee) :
    first.gasPrice = second.gasPrice ∧ first.maxFeePerGas = second.maxFeePerGas ∧
      first.maxPriorityFeePerGas = second.maxPriorityFeePerGas := by
  cases firstPays with
  | legacy price noCap noTip =>
      cases secondPays with
      | legacy otherPrice otherCap otherTip => simp [*]
  | dynamic noPrice cap tip =>
      cases secondPays with
      | dynamic otherPrice otherCap otherTip => simp [*]

/-- Requests whose fields were written alike, the chain id included, ask for the same
transaction. -/
theorem sameTransaction_of_sameFields (firstFormed : first.IsWellFormed)
    (secondFormed : second.IsWellFormed) (firstReady : first.Ready firstSignable firstFee)
    (secondReady : second.Ready secondSignable secondFee) (firstHas : first.value = some firstValue)
    (secondHas : second.value = some secondValue)
    (fields : SameFields first second firstSignable secondSignable firstFee secondFee firstValue
      secondValue firstRest secondRest)
    (legacyChain : firstFee.isDynamic = false → firstSignable.chainId = secondSignable.chainId) :
    SameTransaction first second := by
  rcases fields with ⟨rfl, dynamicChain, nonce, gas, recipient, value, data, _⟩
  have chainId : firstSignable.chainId = secondSignable.chainId := by
    cases way : firstFee.isDynamic with
    | false => exact legacyChain way
    | true => exact dynamicChain way
  rcases firstReady.pays.fields_eq secondReady.pays with ⟨gasPrice, cap, tip⟩
  exact {
    isDynamicFee := by rw [firstReady.pays.isDynamicFee, secondReady.pays.isDynamicFee]
    chainId := by rw [firstReady.chainId, secondReady.chainId, chainId]
    nonce := by rw [firstReady.nonce, secondReady.nonce, nonce]
    gas := by rw [firstReady.gas, secondReady.gas, gas]
    recipient := recipient_eq_of_recipientItem_eq firstFormed secondFormed recipient
    value := by rw [firstHas, secondHas, value]
    data := data
    gasPrice := gasPrice
    maxFeePerGas := cap
    maxPriorityFeePerGas := tip }

end Equal

section Main

variable {first second : TransactionRequest} {signature other : Signature} {octets : Bytes}

theorem sameTransaction_of_signingPayload (firstFormed : first.IsWellFormed)
    (secondFormed : second.IsWellFormed) (fits : octets.length < Rlp.lengthLimit)
    (firstMade : first.signingPayload = .ok octets)
    (secondMade : second.signingPayload = .ok octets) : SameTransaction first second := by
  rcases signingPayload_inv firstMade with ⟨_, _, _, firstReady, firstHas, firstMade⟩
  rcases signingPayload_inv secondMade with ⟨_, _, _, secondReady, secondHas, secondMade⟩
  have fields := sameFields_of_envelope fits firstMade secondMade
  have sameProtection := fields.rest
  rw [← fields.fee] at sameProtection
  exact sameTransaction_of_sameFields firstFormed secondFormed firstReady secondReady firstHas
    secondHas fields fun legacy => protection_inj legacy sameProtection

theorem sameTransaction_of_encodeSigned (firstFormed : first.IsWellFormed)
    (secondFormed : second.IsWellFormed) (valid : signature.IsValid) (otherValid : other.IsValid)
    (fits : octets.length < Rlp.lengthLimit) (firstMade : first.encodeSigned signature = .ok octets)
    (secondMade : second.encodeSigned other = .ok octets) :
    SameTransaction first second ∧ signature.recoveryId = other.recoveryId ∧
      signature.r = other.r ∧ signature.s = other.s := by
  rcases encodeSigned_inv firstMade with ⟨_, _, _, firstReady, firstHas, firstMade⟩
  rcases encodeSigned_inv secondMade with ⟨_, _, _, secondReady, secondHas, secondMade⟩
  have fields := sameFields_of_envelope fits firstMade secondMade
  have sameProof := fields.rest
  rw [← fields.fee] at sameProof
  rcases proof_inj valid otherValid sameProof with ⟨legacyChain, sameSignature⟩
  exact ⟨sameTransaction_of_sameFields firstFormed secondFormed firstReady secondReady firstHas
    secondHas fields legacyChain, sameSignature⟩

theorem encodeSigned_ne_of_signingPayload (valid : signature.IsValid)
    (fits : octets.length < Rlp.lengthLimit) (firstMade : first.signingPayload = .ok octets) :
    second.encodeSigned signature ≠ .ok octets := by
  intro secondMade
  rcases signingPayload_inv firstMade with ⟨_, _, _, _, _, firstMade⟩
  rcases encodeSigned_inv secondMade with ⟨_, _, _, _, _, secondMade⟩
  have fields := sameFields_of_envelope fits firstMade secondMade
  have sameRest := fields.rest
  rw [← fields.fee] at sameRest
  exact protection_ne_proof valid sameRest

/-- What is signed is what was asked: a request that is accepted and has a value has a payload and a
signed transaction, other requests have the same ones only if they ask for the same transaction and
carry the same signature, and no payload is a signed transaction. No bytes in question may be longer
than a header can say. -/
theorem signed_as_asked (firstFormed : first.IsWellFormed) (secondFormed : second.IsWellFormed)
    (valid : signature.IsValid) (otherValid : other.IsValid) {signer : String}
    (accepted : first.checkSignable signer = .ok ()) (hasValue : first.value.isSome) :
    ∃ payload raw,
      first.signingPayload = .ok payload ∧ first.encodeSigned signature = .ok raw ∧
      (payload.length < Rlp.lengthLimit → second.signingPayload = .ok payload →
        SameTransaction first second) ∧
      (raw.length < Rlp.lengthLimit → second.encodeSigned other = .ok raw →
        SameTransaction first second ∧ signature.recoveryId = other.recoveryId ∧
          signature.r = other.r ∧ signature.s = other.s) ∧
      (payload.length < Rlp.lengthLimit → second.encodeSigned other ≠ .ok payload) := by
  rcases exists_signableFor_of_checkSignable accepted with ⟨signable, fee, found⟩
  rcases Option.isSome_iff_exists.mp hasValue with ⟨value, hasValue⟩
  have payloadMade := signingPayload_of_signableFor found hasValue
  have rawMade : first.encodeSigned signature = .ok _ := encodeSigned_of_signableFor found hasValue
  exact ⟨_, _, payloadMade, rawMade,
    fun fits => sameTransaction_of_signingPayload firstFormed secondFormed fits payloadMade,
    fun fits =>
      sameTransaction_of_encodeSigned firstFormed secondFormed valid otherValid fits rawMade,
    fun fits => encodeSigned_ne_of_signingPayload otherValid fits payloadMade⟩

end Main

section Examples

/-- A transfer of nothing to the zero address. -/
def transfer : TransactionRequest :=
  { recipient := some ⟨List.replicate 20 0⟩, gas := some 21000, gasPrice := some 1, nonce := some 0,
    chainId := some 1 }

def sentTransfer : TransactionRequest :=
  { transfer with sender := some ⟨List.replicate 20 0⟩ }

def unitSignature : Signature := { r := 1, s := 1, recoveryId := 0 }

theorem transfer_isWellFormed : transfer.IsWellFormed := by
  rintro _ ⟨⟩
  rfl

theorem sentTransfer_isWellFormed : sentTransfer.IsWellFormed :=
  transfer_isWellFormed

theorem unitSignature_isValid : unitSignature.IsValid :=
  ⟨by decide, by decide, by decide, by decide, Or.inl rfl⟩

/-- A request to which a sender was added is signed alike. -/
theorem signed_as_asked_of_sender : ∃ payload raw,
    transfer.signingPayload = .ok payload ∧ transfer.encodeSigned unitSignature = .ok raw ∧
    sentTransfer.signingPayload = .ok payload ∧ SameTransaction transfer sentTransfer ∧
    sentTransfer.encodeSigned unitSignature ≠ .ok payload := by
  have accepted : transfer.checkSignable = .ok () := rfl
  rcases signed_as_asked transfer_isWellFormed sentTransfer_isWellFormed unitSignature_isValid
    unitSignature_isValid accepted rfl with
    ⟨payload, raw, payloadMade, rawMade, samePayload, sameRaw, otherwise⟩
  have fits : payload.length < Rlp.lengthLimit := by
    cases payloadMade
    decide +kernel
  have sentPayload : sentTransfer.signingPayload = .ok payload := payloadMade
  exact ⟨payload, raw, payloadMade, rawMade, sentPayload, samePayload fits sentPayload,
    otherwise fits⟩

/-- A request without a value is accepted, but has no payload. -/
theorem not_signed_without_value : ¬∀ request : TransactionRequest, request.IsWellFormed →
    request.checkSignable = .ok () → ∃ payload, request.signingPayload = .ok payload := by
  intro signed
  rcases signed { transfer with value := none } transfer_isWellFormed rfl with ⟨payload, made⟩
  cases made

end Examples

end TransactionRequest

end ContractClient
