import ContractClient.Proofs.Bytes
import ContractClient.Proofs.Transaction.Envelope
import ContractClient.Transaction.Policy

/-!
# Drafts of transactions

A draft is written down again with one of its numbers given anew exactly if its addresses are
addresses and the number is natural; nothing else changes
(`TransactionRequest.replace_eq_ok_iff`). Fees are filled in once and for all: filling them in again
changes nothing (`FeeDefaults.Prices.apply_eq_self`), and whoever keeps to one way to pay in the
defaults does so in the result. A draft with all the other fields can be signed unless a fee is
missing (`TransactionRequest.checkSignable_eq_ok_iff`).
-/

namespace ContractClient

open Outcome

namespace TransactionRequest

variable {request changed : TransactionRequest}

/-- The sender and the recipient, if there are any, are addresses of twenty bytes. -/
structure IsAddressed (request : TransactionRequest) : Prop where
  sender : ∀ sender ∈ request.sender, sender.octets.length = Address.length
  recipient : request.IsWellFormed

/-- A draft has all that another one has, and differs only in what the other one leaves open. -/
structure Keeps (built request : TransactionRequest) : Prop where
  sender : ∀ sender ∈ request.sender, built.sender = some sender
  recipient : built.recipient = request.recipient
  value : built.value = request.value
  data : built.data = request.data
  gas : ∀ gas ∈ request.gas, built.gas = some gas
  gasPrice : ∀ price ∈ request.gasPrice, built.gasPrice = some price
  maxFeePerGas : ∀ cap ∈ request.maxFeePerGas, built.maxFeePerGas = some cap
  maxPriorityFeePerGas :
    ∀ tip ∈ request.maxPriorityFeePerGas, built.maxPriorityFeePerGas = some tip
  nonce : ∀ nonce ∈ request.nonce, built.nonce = some nonce
  chainId : ∀ chainId ∈ request.chainId, built.chainId = some chainId

theorem Keeps.trans {built filled : TransactionRequest} (later : built.Keeps filled)
    (earlier : filled.Keeps request) : built.Keeps request where
  sender sender has := later.sender sender (earlier.sender sender has)
  recipient := later.recipient.trans earlier.recipient
  value := later.value.trans earlier.value
  data := later.data.trans earlier.data
  gas gas has := later.gas gas (earlier.gas gas has)
  gasPrice price has := later.gasPrice price (earlier.gasPrice price has)
  maxFeePerGas cap has := later.maxFeePerGas cap (earlier.maxFeePerGas cap has)
  maxPriorityFeePerGas tip has :=
    later.maxPriorityFeePerGas tip (earlier.maxPriorityFeePerGas tip has)
  nonce nonce has := later.nonce nonce (earlier.nonce nonce has)
  chainId chainId has := later.chainId chainId (earlier.chainId chainId has)

theorem addressField_toValue {address : Address} (name : String)
    (sized : address.octets.length = Address.length) :
    addressField name address.toValue = .ok (some address) := by
  have spelled : addressField name address.toValue =
      (Address.ofValue address.toValue name).map some := rfl
  rw [spelled, Address.ofValue_toValue name sized]
  rfl

theorem addressField_toValue_eq_ok_iff {name : String} {address field : Option Address} :
    addressField name (Value.ofOption (address.map Address.toValue)) = .ok field ↔
      (∀ known ∈ address, known.octets.length = Address.length) ∧ field = address := by
  cases address with
  | none => simp [addressField, Value.ofOption, eq_comm]
  | some address =>
      have spelled : addressField name (Value.ofOption (some address.toValue)) =
          (Address.ofValue address.toValue name).map some := rfl
      rw [Option.map_some, spelled]
      constructor
      · intro read
        cases found : Address.ofValue address.toValue name with
        | error failure => simp [found, Except.map] at read
        | ok other =>
            rw [found] at read
            cases read
            cases Address.eq_of_ofValue_toValue found
            exact ⟨by simpa using Address.length_of_ofValue found, rfl⟩
      · rintro ⟨size, rfl⟩
        exact addressField_toValue name (size address rfl)

theorem numberField_ofNat? (name : String) (number : Option Nat) :
    numberField name (.ofNat? number) = .ok number := by
  cases number with
  | none => rfl
  | some number =>
      have natural : ¬(number : Int) < 0 := by omega
      simp [Value.ofNat?, numberField, natural]

theorem numberField_int_eq_ok_iff {name : String} {number : Int} {field : Option Nat} :
    numberField name (.int number) = .ok field ↔
      ∃ natural : Nat, number = natural ∧ field = some natural := by
  rw [numberField]
  split
  · next negative =>
      refine iff_of_false nofun ?_
      rintro ⟨natural, rfl, _⟩
      omega
  · next natural =>
      rw [Except.ok.injEq]
      constructor
      · intro same
        exact ⟨number.toNat, by omega, same.symm⟩
      · rintro ⟨other, rfl, rfl⟩
        simp

/-- The fields of a draft with other numbers for a node to tell. -/
def fieldsWith (request : TransactionRequest) (nonce gas chainId : Value) : Dict := [
  ("from_address", Value.ofOption (request.sender.map Address.toValue)),
  ("to", Value.ofOption (request.recipient.map Address.toValue)),
  ("value", .ofNat? request.value), ("data", .bytes request.data),
  ("gas", gas), ("gas_price", .ofNat? request.gasPrice),
  ("max_fee_per_gas", .ofNat? request.maxFeePerGas),
  ("max_priority_fee_per_gas", .ofNat? request.maxPriorityFeePerGas),
  ("nonce", nonce), ("chain_id", chainId)]

theorem ofFields_fieldsWith_eq_ok_iff {nonce gas chainId : Value} :
    ofFields (request.fieldsWith nonce gas chainId) = .ok changed ↔
      request.IsAddressed ∧ ∃ gasField nonceField chainIdField,
        numberField "gas" gas = .ok gasField ∧ numberField "nonce" nonce = .ok nonceField ∧
          numberField "chain_id" chainId = .ok chainIdField ∧
            changed = { request with
              gas := gasField, nonce := nonceField, chainId := chainIdField } := by
  have read : ofFields (request.fieldsWith nonce gas chainId) = do
      let sender ←
        addressField "from_address" (Value.ofOption (request.sender.map Address.toValue))
      let recipient ← addressField "to" (Value.ofOption (request.recipient.map Address.toValue))
      let gas ← numberField "gas" gas
      let nonce ← numberField "nonce" nonce
      let chainId ← numberField "chain_id" chainId
      return { request with sender, recipient, gas, nonce, chainId } := by
    simp [ofFields, fieldsWith, fieldNames, Dict.get?, numberField_ofNat?, Data.bytesOfValue,
      Value.ofOption]
  simp only [read, bind_eq_ok_iff, addressField_toValue_eq_ok_iff, pure_eq_ok, Except.ok.injEq]
  constructor
  · rintro ⟨_, ⟨sender, rfl⟩, _, ⟨recipient, rfl⟩, gasField, hasGas, nonceField, hasNonce,
      chainIdField, hasChainId, rfl⟩
    exact ⟨⟨sender, recipient⟩, gasField, nonceField, chainIdField, hasGas, hasNonce, hasChainId,
      rfl⟩
  · rintro ⟨addressed, gasField, nonceField, chainIdField, hasGas, hasNonce, hasChainId, rfl⟩
    exact ⟨_, ⟨addressed.sender, rfl⟩, _, ⟨addressed.recipient, rfl⟩, gasField, hasGas, nonceField,
      hasNonce, chainIdField, hasChainId, rfl⟩

/-- A number of a draft that a node can tell. -/
inductive Gap where
  | nonce | gas | chainId
  deriving DecidableEq

namespace Gap

def key : Gap → String
  | nonce => "nonce"
  | gas => "gas"
  | chainId => "chain_id"

/-- The gaps in the order in which they are filled. -/
def all : List Gap :=
  [nonce, gas, chainId]

/-- The number that a draft has. -/
def of (request : TransactionRequest) : Gap → Option Nat
  | nonce => request.nonce
  | gas => request.gas
  | chainId => request.chainId

/-- A draft with another number. -/
def set (request : TransactionRequest) (number : Nat) : Gap → TransactionRequest
  | nonce => { request with nonce := some number }
  | gas => { request with gas := some number }
  | chainId => { request with chainId := some number }

variable {gap other : Gap} {number : Nat}

theorem mem_all (gap : Gap) : gap ∈ all := by
  cases gap <;> decide

theorem nodup_all : all.Nodup := by
  decide

@[simp]
theorem of_set : gap.of (gap.set request number) = some number := by
  cases gap <;> rfl

theorem of_set_of_ne (different : other ≠ gap) :
    other.of (gap.set request number) = other.of request := by
  cases gap <;> cases other <;> first | rfl | exact absurd rfl different

theorem isAddressed_set (addressed : request.IsAddressed) :
    (gap.set request number).IsAddressed := by
  cases gap <;> exact ⟨addressed.sender, addressed.recipient⟩

end Gap

theorem replace_eq_ok_iff {gap : Gap} {number : Int} :
    request.replace [(gap.key, .int number)] = .ok changed ↔
      request.IsAddressed ∧
        ∃ natural : Nat, number = natural ∧ changed = gap.set request natural := by
  have merged : Dict.merge request.toFields [(gap.key, .int number)] = match gap with
      | .nonce => request.fieldsWith (.int number) (.ofNat? request.gas) (.ofNat? request.chainId)
      | .gas => request.fieldsWith (.ofNat? request.nonce) (.int number) (.ofNat? request.chainId)
      | .chainId =>
        request.fieldsWith (.ofNat? request.nonce) (.ofNat? request.gas) (.int number) := by
    cases gap <;> simp [Dict.merge, Dict.set, toFields, fieldsWith, Gap.key]
  rw [replace, merged]
  cases gap <;>
    simp only [ofFields_fieldsWith_eq_ok_iff, numberField_ofNat?, numberField_int_eq_ok_iff,
      Except.ok.injEq, Gap.set] <;>
    grind

/-- A fee is missing: there is no gas price, and of the fee cap and the priority fee not both. -/
def LacksFee (request : TransactionRequest) : Prop :=
  request.gasPrice = none ∧ (request.maxFeePerGas = none ∨ request.maxPriorityFeePerGas = none)

theorem checkFeeModel_eq_ok_iff :
    request.checkFeeModel = .ok () ↔
      ¬(request.hasLegacyFee = true ∧ request.hasDynamicFee = true) := by
  rw [checkFeeModel]
  split
  · next both => simp_all [Outcome.fault]
  · next single => simpa using single

theorem feeFor_eq_ok_iff (signer : String) (oneModel : request.checkFeeModel = .ok ()) :
    (∃ fee, request.feeFor signer = .ok fee) ↔ ¬request.LacksFee := by
  rw [checkFeeModel_eq_ok_iff] at oneModel
  unfold feeFor LacksFee
  cases price : request.gasPrice <;> cases cap : request.maxFeePerGas <;>
    cases tip : request.maxPriorityFeePerGas <;>
    simp_all [hasLegacyFee, hasDynamicFee, requireField]

/-- A draft with all its numbers can be signed unless a fee is missing. -/
theorem checkSignable_eq_ok_iff (signer : String)
    (complete : ∀ gap : Gap, ∃ number, gap.of request = some number)
    (oneModel : request.checkFeeModel = .ok ()) :
    request.checkSignable signer = .ok () ↔ ¬request.LacksFee := by
  rcases complete .nonce, complete .gas, complete .chainId with
    ⟨⟨nonce, hasNonce⟩, ⟨gas, hasGas⟩, ⟨chainId, hasChainId⟩⟩
  simp only [Gap.of] at hasNonce hasGas hasChainId
  rw [← feeFor_eq_ok_iff signer oneModel]
  have ready : request.signableFor signer = do
      return ({ nonce, chainId, gas }, ← request.feeFor signer) := by
    simp [signableFor, oneModel, hasNonce, hasGas, hasChainId, requireField]
  rw [checkSignable, ready]
  cases request.feeFor signer with
  | ok fee => exact iff_of_true rfl ⟨fee, rfl⟩
  | error failure => exact iff_of_false (by rintro ⟨⟩) (by rintro ⟨_, ⟨⟩⟩)

end TransactionRequest

namespace FeeDefaults

variable {fees : FeeDefaults} {request priced : TransactionRequest}

/-- What becomes of a request when fees are filled in. -/
inductive Prices (fees : FeeDefaults) (request : TransactionRequest) :
    TransactionRequest → Prop where
  | legacy (price : request.hasLegacyFee = true) (noCap : request.hasDynamicFee = false) :
      Prices fees request request
  | dynamic (noPrice : request.hasLegacyFee = false) (cap : request.hasDynamicFee = true) :
      Prices fees request { request with
        maxFeePerGas := request.maxFeePerGas <|> fees.maxFeePerGas
        maxPriorityFeePerGas := request.maxPriorityFeePerGas <|> fees.maxPriorityFeePerGas }
  | unpriced (noPrice : request.hasLegacyFee = false) (noCap : request.hasDynamicFee = false) :
      Prices fees request { request with
        gasPrice := fees.gasPrice
        maxFeePerGas := fees.maxFeePerGas
        maxPriorityFeePerGas := fees.maxPriorityFeePerGas }

theorem apply_inv (applied : fees.apply request = .ok priced) : fees.Prices request priced := by
  unfold apply at applied
  rcases bind_eq_ok_iff.mp applied with ⟨_, oneModel, filled⟩
  have single := TransactionRequest.checkFeeModel_eq_ok_iff.mp oneModel
  split at filled
  · next price =>
      cases filled
      exact .legacy price (by simpa [price] using single)
  · next noPrice =>
      split at filled
      · next cap =>
          cases filled
          exact .dynamic (by simpa using noPrice) cap
      · next noCap =>
          cases filled
          exact .unpriced (by simpa using noPrice) (by simpa using noCap)

/-- Fees are filled in unless both ways to pay are named. -/
theorem apply_eq_ok (oneModel : request.checkFeeModel = .ok ()) :
    ∃ priced, fees.apply request = .ok priced := by
  rw [apply, oneModel, ok_bind]
  split
  · exact ⟨_, rfl⟩
  · split <;> exact ⟨_, rfl⟩

namespace Prices

variable (prices : fees.Prices request priced)

include prices

/-- Fees are filled in; nothing that a request has is changed. -/
theorem keeps : priced.Keeps request := by
  cases prices <;> constructor <;>
    simp_all [TransactionRequest.hasLegacyFee, TransactionRequest.hasDynamicFee]

theorem sender : priced.sender = request.sender := by
  cases prices <;> rfl

theorem of (gap : TransactionRequest.Gap) : gap.of priced = gap.of request := by
  cases prices <;> cases gap <;> rfl

/-- Fees of one kind are filled in. -/
theorem checkFeeModel (single : fees.hasSingleModel = true) : priced.checkFeeModel = .ok () := by
  rw [TransactionRequest.checkFeeModel_eq_ok_iff]
  cases prices with
  | legacy _ noCap => simp [noCap]
  | dynamic noPrice _ =>
      have stillNoPrice : request.gasPrice.isSome = false := noPrice
      simp [TransactionRequest.hasLegacyFee, stillNoPrice]
  | unpriced noPrice noCap =>
      cases price : fees.gasPrice <;>
        simp_all [hasSingleModel, TransactionRequest.hasLegacyFee,
          TransactionRequest.hasDynamicFee]

/-- Filling in the fees again changes nothing. -/
theorem apply_eq_self (single : fees.hasSingleModel = true) : fees.apply priced = .ok priced := by
  rw [apply, prices.checkFeeModel single, ok_bind]
  -- A fee that is there already is not replaced, and one that neither has stays missing.
  have again : ∀ fee default : Option Nat, ((fee <|> default) <|> default) = (fee <|> default) := by
    intro fee default
    cases fee <;> cases default <;> rfl
  split
  · rfl
  · next noPrice =>
      cases prices with
      | legacy price _ => exact absurd price noPrice
      | dynamic _ cap =>
          have stillCap : ((request.maxFeePerGas <|> fees.maxFeePerGas).isSome ||
              (request.maxPriorityFeePerGas <|> fees.maxPriorityFeePerGas).isSome) = true := by
            simp_all [TransactionRequest.hasDynamicFee]
            grind
          rw [TransactionRequest.hasDynamicFee, if_pos stillCap]
          dsimp only
          rw [again, again]
          rfl
      | unpriced _ _ =>
          split
          · have twice : ∀ fee : Option Nat, (fee <|> fee) = fee := by
              intro fee
              cases fee <;> rfl
            dsimp only
            rw [twice, twice]
            rfl
          · rfl

end Prices

end FeeDefaults

end ContractClient
