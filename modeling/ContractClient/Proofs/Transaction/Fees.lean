import ContractClient.Proofs.Schema
import ContractClient.Proofs.Transaction.Draft

/-!
# Fees

There are two ways to pay for gas: by a price, or by a cap and a tip below it. A draft keeps to one
of them. Defaults complete the way that a draft has chosen, or choose one for a draft that has not;
they never change what a draft has, and never mix the two ways (`FeeDefaults.apply_completes`).
Drafts are values: the one that is given stays as it is.
-/

namespace ContractClient

inductive FeeModel where
  | legacy | dynamic

/-- An amount that is offered for gas. -/
inductive FeeField where
  | price | cap | tip

namespace FeeField

def all : List FeeField :=
  [price, cap, tip]

def model : FeeField → FeeModel
  | price => .legacy
  | cap => .dynamic
  | tip => .dynamic

def key : FeeField → String
  | price => "gas_price"
  | cap => "max_fee_per_gas"
  | tip => "max_priority_fee_per_gas"

def of (request : TransactionRequest) : FeeField → Option Nat
  | price => request.gasPrice
  | cap => request.maxFeePerGas
  | tip => request.maxPriorityFeePerGas

def default (fees : FeeDefaults) : FeeField → Option Nat
  | price => fees.gasPrice
  | cap => fees.maxFeePerGas
  | tip => fees.maxPriorityFeePerGas

end FeeField

namespace TransactionRequest

variable {request : TransactionRequest}

/-- A draft chooses the way to pay that one of its fees belongs to. -/
def Chooses (request : TransactionRequest) (model : FeeModel) : Prop :=
  ∃ fee : FeeField, fee.model = model ∧ ∃ amount, fee.of request = some amount

/-- A draft leaves a way to pay open: it has chosen this one, or none at all. -/
def LeavesOpen (request : TransactionRequest) (model : FeeModel) : Prop :=
  request.Chooses model ∨ ∀ other, ¬request.Chooses other

/-- A draft does not mix the ways to pay. -/
def PaysOneWay (request : TransactionRequest) : Prop :=
  ∀ first second, request.Chooses first → request.Chooses second → first = second

def withoutFees (request : TransactionRequest) : TransactionRequest :=
  { request with gasPrice := none, maxFeePerGas := none, maxPriorityFeePerGas := none }

/-- The fees of a draft by their names. -/
def feeFields (request : TransactionRequest) : Dict :=
  FeeField.all.map fun fee => (fee.key, .ofNat? (fee.of request))

theorem chooses_legacy_iff : request.Chooses .legacy ↔ request.hasLegacyFee = true := by
  rw [hasLegacyFee, Option.isSome_iff_exists]
  constructor
  · rintro ⟨fee, belongs, set⟩
    cases fee with
    | price => exact set
    | cap | tip => cases belongs
  · intro set
    exact ⟨.price, rfl, set⟩

theorem chooses_dynamic_iff : request.Chooses .dynamic ↔ request.hasDynamicFee = true := by
  rw [hasDynamicFee, Bool.or_eq_true, Option.isSome_iff_exists, Option.isSome_iff_exists]
  constructor
  · rintro ⟨fee, belongs, set⟩
    cases fee with
    | price => cases belongs
    | cap => exact .inl set
    | tip => exact .inr set
  · rintro (set | set)
    · exact ⟨.cap, rfl, set⟩
    · exact ⟨.tip, rfl, set⟩

theorem paysOneWay_iff : request.PaysOneWay ↔ request.checkFeeModel = .ok () := by
  rw [checkFeeModel_eq_ok_iff, ← chooses_legacy_iff, ← chooses_dynamic_iff]
  constructor
  · rintro oneWay ⟨legacy, dynamic⟩
    exact absurd (oneWay _ _ legacy dynamic) nofun
  · intro single first second
    cases first <;> cases second
    · intro _ _
      rfl
    · intro legacy dynamic
      exact absurd ⟨legacy, dynamic⟩ single
    · intro dynamic legacy
      exact absurd ⟨legacy, dynamic⟩ single
    · intro _ _
      rfl

/-- A draft is written down again with its own fees. -/
theorem ofFields_toFields (addressed : request.IsAddressed) :
    ofFields request.toFields = .ok request := by
  apply ofFields_fieldsWith_eq_ok_iff.mpr
  exact ⟨addressed, _, _, _, numberField_ofNat? _ _, numberField_ofNat? _ _,
    numberField_ofNat? _ _, rfl⟩

/-- Drafts that differ in their fees only are made from each other by writing them down again. -/
theorem replace_feeFields {priced : TransactionRequest}
    (same : priced.withoutFees = request.withoutFees) (addressed : request.IsAddressed) :
    request.replace priced.feeFields = .ok priced := by
  simp only [withoutFees, mk.injEq] at same
  have merged : Dict.merge request.toFields priced.feeFields = priced.toFields := by
    simp [Dict.merge, Dict.set, toFields, feeFields, FeeField.all, FeeField.key, FeeField.of, same]
  rw [replace, merged]
  apply ofFields_toFields
  constructor
  · rw [same.1]
    exact addressed.sender
  · rw [IsWellFormed, same.2.1]
    exact addressed.recipient

end TransactionRequest

namespace FeeDefaults

open TransactionRequest

variable {fees : FeeDefaults} {request priced : TransactionRequest} {entries : Dict}

/-- Defaults choose the way to pay that one of their fees belongs to. -/
def Chooses (fees : FeeDefaults) (model : FeeModel) : Prop :=
  ∃ fee : FeeField, fee.model = model ∧ ∃ amount, fee.default fees = some amount

/-- What a draft becomes when its way to pay is completed. -/
structure Completes (fees : FeeDefaults) (request priced : TransactionRequest) : Prop where
  paysOneWay : priced.PaysOneWay
  kept : ∀ (fee : FeeField) amount, fee.of request = some amount → fee.of priced = some amount
  /-- What is filled in is a default, of the way that the draft has chosen, or of the defaults' own
  way where it has chosen none. -/
  filled : ∀ (fee : FeeField) amount, fee.of request = none → fee.of priced = some amount →
    fee.default fees = some amount ∧
      (request.Chooses fee.model ∨ (∀ other, ¬request.Chooses other) ∧ fees.Chooses fee.model)
  /-- No default is left out that belongs to that way. -/
  complete : ∀ fee : FeeField, fee.of request = none → request.LeavesOpen fee.model →
    fee.of priced = fee.default fees
  others : priced.withoutFees = request.withoutFees
  /-- The draft is not read differently when it is written down again. -/
  rewritten : request.IsAddressed → request.replace priced.feeFields = .ok priced

theorem hasSingleModel_of_read (accepted : read entries = .valid fees) :
    fees.hasSingleModel = true :=
  (Checked.require_eq_valid accepted).2

namespace Prices

variable (prices : fees.Prices request priced)

include prices

theorem kept (fee : FeeField) (amount : Nat) (set : fee.of request = some amount) :
    fee.of priced = some amount := by
  have keeps := prices.keeps
  cases fee with
  | price => exact keeps.gasPrice amount set
  | cap => exact keeps.maxFeePerGas amount set
  | tip => exact keeps.maxPriorityFeePerGas amount set

theorem withoutFees : priced.withoutFees = request.withoutFees := by
  cases prices <;> rfl

/-- A fee that a draft lacks is the default where its way is open, and stays missing elsewhere. -/
theorem of_lacking (fee : FeeField) (lacking : fee.of request = none) :
    (request.LeavesOpen fee.model → fee.of priced = fee.default fees) ∧
      (¬request.LeavesOpen fee.model → fee.of priced = none) := by
  cases prices with
  | legacy price noCap =>
      have chosen := chooses_legacy_iff.mpr price
      refine ⟨fun openWay => ?_, fun _ => lacking⟩
      cases fee with
      | price => simp_all [hasLegacyFee, FeeField.of]
      | cap | tip =>
          rcases openWay with dynamic | none
          · simp [chooses_dynamic_iff.mp dynamic] at noCap
          · exact absurd chosen (none _)
  | dynamic noPrice cap =>
      have chosen := chooses_dynamic_iff.mpr cap
      cases fee with
      | price =>
          refine ⟨fun openWay => ?_, fun _ => lacking⟩
          rcases openWay with legacy | none
          · simp [chooses_legacy_iff.mp legacy] at noPrice
          · exact absurd chosen (none _)
      | cap | tip =>
          refine ⟨fun _ => ?_, fun closed => absurd (.inl chosen) closed⟩
          simp only [FeeField.of] at lacking
          simp [FeeField.of, FeeField.default, lacking]
  | unpriced noPrice noCap =>
      have none : ∀ other, ¬request.Chooses other := by
        intro other
        cases other with
        | legacy => simp [chooses_legacy_iff, noPrice]
        | dynamic => simp [chooses_dynamic_iff, noCap]
      refine ⟨fun _ => ?_, fun closed => absurd (.inr none) closed⟩
      cases fee <;> rfl

theorem completes (single : fees.hasSingleModel = true) : fees.Completes request priced where
  paysOneWay := paysOneWay_iff.mpr (prices.checkFeeModel single)
  kept := prices.kept
  filled fee amount lacking set := by
    rcases prices.of_lacking fee lacking with ⟨whenOpen, whenClosed⟩
    by_cases openWay : request.LeavesOpen fee.model
    · rw [whenOpen openWay] at set
      refine ⟨set, ?_⟩
      rcases openWay with chosen | none
      · exact .inl chosen
      · exact .inr ⟨none, fee, rfl, amount, set⟩
    · rw [whenClosed openWay] at set
      cases set
  complete fee lacking openWay := (prices.of_lacking fee lacking).1 openWay
  others := prices.withoutFees
  rewritten := replace_feeFields prices.withoutFees

end Prices

/-- Defaults that are accepted complete every draft that does not mix the ways to pay, once and for
all, and refuse every other one. -/
theorem apply_completes (accepted : read entries = .valid fees) (request : TransactionRequest) :
    (request.PaysOneWay → ∃ priced, fees.apply request = .ok priced ∧
      fees.Completes request priced ∧ fees.apply priced = .ok priced) ∧
    (¬request.PaysOneWay → fees.apply request = Outcome.fault (.validation
      "gas_price and max_fee_per_gas/max_priority_fee_per_gas are mutually exclusive")) := by
  have single := hasSingleModel_of_read accepted
  constructor
  · intro oneWay
    have completed : ∃ priced, fees.apply request = .ok priced :=
      apply_eq_ok (paysOneWay_iff.mp oneWay)
    rcases completed with ⟨priced, applied⟩
    have prices := apply_inv applied
    exact ⟨priced, applied, prices.completes single, prices.apply_eq_self single⟩
  · intro mixed
    have refused : (request.hasLegacyFee && request.hasDynamicFee) = true := by
      rw [paysOneWay_iff, checkFeeModel_eq_ok_iff, not_not] at mixed
      simpa using mixed
    rw [apply, checkFeeModel, if_pos refused]
    rfl

/-- A tip of nothing is a tip: it is kept, and only the cap is filled in. -/
theorem apply_completes_free :
    ∃ fees, read [("max_fee_per_gas", .text "20"), ("max_priority_fee_per_gas", .int 3)] =
        .valid fees ∧
      fees.apply { maxPriorityFeePerGas := some 0 } =
        .ok { maxFeePerGas := some 20, maxPriorityFeePerGas := some 0 } ∧
      fees.apply { maxFeePerGas := some 20, maxPriorityFeePerGas := some 0 } =
        .ok { maxFeePerGas := some 20, maxPriorityFeePerGas := some 0 } := by
  have accepted : read [("max_fee_per_gas", .text "20"), ("max_priority_fee_per_gas", .int 3)] =
      .valid { maxFeePerGas := some 20, maxPriorityFeePerGas := some 3 } := rfl
  have oneWay : PaysOneWay { maxPriorityFeePerGas := some 0 } := paysOneWay_iff.mpr rfl
  rcases (apply_completes accepted { maxPriorityFeePerGas := some 0 }).1 oneWay with
    ⟨priced, applied, _, again⟩
  cases applied
  exact ⟨_, accepted, rfl, again⟩

end FeeDefaults

end ContractClient
