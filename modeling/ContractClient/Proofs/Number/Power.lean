import ContractClient.Proofs.Number.Amount

/-!
# Powers

A power of a floating point number from one on is the exact power, rounded once, as long as that is
within range (`Numeral.pow_of_amounts`). Out of range there is none.
-/

namespace ContractClient.Numeral

open Binary64

variable {numeral power : Numeral} {number : Binary64} {base exact : Rat} {exponent : Nat}

/-- A power of which a thousandth part of the exponent shows that it is too large is too large. -/
theorem overflowLimit_le_pow (large : extremePower? base exponent = some true) :
    overflowLimit ≤ base ^ exponent := by
  unfold extremePower? at large
  dsimp only at large
  split at large
  · next found =>
      rcases found with ⟨beyondOne, bits⟩
      generalize whole : (base ^ 1000).floor.toNat = least at bits
      have start : 1 ≤ base ^ 1000 := one_le_pow₀ beyondOne.le
      have below : (least : Rat) ≤ base ^ 1000 := by
        have nonneg : 0 ≤ (base ^ 1000).floor := Rat.le_floor_iff.mpr (by push_cast; linarith)
        rw [← whole, ← Int.cast_natCast, Int.toNat_of_nonneg nonneg]
        exact Rat.floor_le _
      have positive : least ≠ 0 := by
        rintro rfl
        simp at bits
      have doubled : (2 : Rat) ^ least.log2 ≤ least := by
        exact_mod_cast Nat.log2_self_le positive
      calc overflowLimit
          ≤ 2 ^ (least.log2 * (exponent / 1000)) := overflowLimit_le_two_pow_iff.mpr (by omega)
        _ = (2 ^ least.log2) ^ (exponent / 1000) := pow_mul 2 _ _
        _ ≤ (base ^ 1000) ^ (exponent / 1000) :=
          pow_le_pow_left₀ (by positivity) (doubled.trans below) _
        _ = base ^ (1000 * (exponent / 1000)) := (pow_mul base _ _).symm
        _ ≤ base ^ exponent := pow_le_pow_right₀ beyondOne.le (Nat.mul_div_le exponent 1000)
  · split at large <;> cases large

theorem extremePower?_ne_small (least : 1 ≤ base) : extremePower? base exponent ≠ some false := by
  unfold extremePower?
  dsimp only
  split
  · simp
  · split
    · next found => exact absurd found.2.1 (not_lt.mpr least)
    · simp

/-- A power of a number from one on is rounded once. Out of range there is none. -/
theorem pow_of_amounts (amounts : number.Amounts (exact : Rat)) (least : 1 ≤ exact) :
    (exact ^ exponent < overflowLimit ∧ ∃ power, (float number).pow exponent = .ok (.float power) ∧
        power.Amounts (nearest (exact ^ exponent) : Rat)) ∨
      overflowLimit ≤ exact ^ exponent ∧
        (float number).pow exponent = Outcome.condition .overflow := by
  have value := amounts.toRat?_eq
  rcases amounts.exists_finite with ⟨negative, mantissa, place, rfl, sign, rfl⟩
  have positive : negative = false := by
    cases negative
    · rfl
    · rw [sign rfl] at least
      norm_num [scaled] at least
  subst positive
  generalize scaled mantissa place = exact at value least
  have nonneg : 0 ≤ exact := by linarith
  have raised : (float (.finite false mantissa place)).pow exponent =
      (do return float (← powFinite false exact exponent)) := by
    have unsigned : (if exact < 0 then -exact else exact) = exact := if_neg (not_lt.mpr nonneg)
    simp only [pow, value, Option.getD_some, unsigned]
    rfl
  have nonzero : ¬exact = 0 := by linarith
  rw [raised]
  cases extreme : extremePower? exact exponent with
  | some large =>
      cases large with
      | true =>
          have beyond : powFinite false exact exponent = Outcome.condition .overflow := by
            rw [powFinite, if_neg nonzero, extreme]
          rw [beyond]
          exact Or.inr ⟨overflowLimit_le_pow extreme, rfl⟩
      | false => exact absurd extreme (extremePower?_ne_small least)
  | none =>
      have finite : powFinite false exact exponent =
          if (ofRat (exact ^ exponent)).isFinite then .ok (ofRat (exact ^ exponent))
          else Outcome.condition .overflow := by
        rw [powFinite, if_neg nonzero, extreme]
        rfl
      have rounds := amounts_ofRat (pow_nonneg nonneg exponent)
      rw [finite]
      rcases lt_or_ge (exact ^ exponent) overflowLimit with within | beyond
      · rw [rounded_of_lt within] at rounds
        rcases rounds.exists_finite with ⟨_, _, _, spelled, _⟩
        refine Or.inl ⟨within, _, ?_, rounds⟩
        rw [if_pos (by rw [spelled]; rfl)]
        rfl
      · rw [rounded_of_le beyond] at rounds
        refine Or.inr ⟨beyond, ?_⟩
        rw [rounds.eq_infinite]
        rfl

theorem exists_float_of_pow (raised : (float number).pow exponent = .ok power) :
    ∃ result, power = .float result := by
  cases number with
  | finite negative mantissa place =>
      rcases Outcome.bind_eq_ok_iff.mp raised with ⟨result, _, made⟩
      cases made
      exact ⟨result, rfl⟩
  | infinite negative =>
      cases raised
      exact ⟨_, rfl⟩
  | notANumber =>
      cases raised
      exact ⟨_, rfl⟩

section Readings

variable {amount : WithTop Rat} {later : Nat}

/-- What a power amounts to that is read as a floating point number. -/
def powerAmount (amount : WithTop Rat) (exponent : Nat) : WithTop Rat :=
  match amount with
  | ⊤ => if exponent = 0 then 1 else ⊤
  | (base : Rat) => (nearest (base ^ exponent) : Rat)

@[simp]
theorem powerAmount_top : powerAmount ⊤ exponent = if exponent = 0 then 1 else ⊤ :=
  rfl

@[simp]
theorem powerAmount_coe : powerAmount (base : Rat) exponent = (nearest (base ^ exponent) : Rat) :=
  rfl

theorem nearest_one : nearest 1 = 1 := by
  have onGrid : IsOnGrid ((1 : Nat) : Rat) := isOnGrid_natCast (by norm_num)
  exact nearest_of_isOnGrid zero_le_one (by exact_mod_cast onGrid)

theorem one_le_powerAmount (large : 1 ≤ amount) : 1 ≤ powerAmount amount exponent := by
  cases amount with
  | top =>
      rw [powerAmount_top]
      split
      · exact le_rfl
      · exact le_top
  | coe base =>
      have least : (1 : Rat) ≤ base := by exact_mod_cast large
      have more := nearest_mono zero_le_one (one_le_pow₀ least (n := exponent))
      rw [nearest_one] at more
      exact WithTop.coe_le_coe.mpr more

theorem powerAmount_mono (large : 1 ≤ amount) (order : exponent ≤ later) :
    powerAmount amount exponent ≤ powerAmount amount later := by
  cases amount with
  | top =>
      rcases Nat.eq_zero_or_pos later with rfl | positive
      · rw [Nat.le_zero.mp order]
      · have infinite : powerAmount ⊤ later = ⊤ := if_neg positive.ne'
        rw [infinite]
        exact le_top
  | coe base =>
      have least : (1 : Rat) ≤ base := by exact_mod_cast large
      have nonneg : 0 ≤ base ^ exponent := by positivity
      have more := nearest_mono nonneg (pow_le_pow_right₀ least order)
      exact WithTop.coe_le_coe.mpr more

/-- A power of a numeral from one on is a floating point number if it is within range. -/
theorem exists_power (amounts : numeral.Amounts amount) (large : 1 ≤ amount)
    (within : ∀ exact : Rat, amount = exact → exact ^ exponent < overflowLimit) :
    ∃ power number, numeral.pow exponent = .ok power ∧ power.toBinary64 = .ok number ∧
      number.Amounts (powerAmount amount exponent) := by
  cases amounts with
  | int count =>
      have below := within count rfl
      rw [← Nat.cast_pow] at below
      rcases exists_toBinary64_natCast below with ⟨number, read, amounts⟩
      rw [Int.natCast_pow] at read
      refine ⟨_, number, rfl, read, ?_⟩
      rwa [powerAmount_coe, ← Nat.cast_pow]
  | @float number amount amounts =>
      cases amount with
      | top =>
          rw [amounts.eq_infinite, powerAmount_top]
          have one := amounts_ofInt 1
          rw [rounded_natCast (by norm_num)] at one
          refine ⟨_, _, rfl, rfl, ?_⟩
          split
          · exact_mod_cast one
          · exact .infinite
      | coe base =>
          rcases pow_of_amounts amounts (WithTop.coe_le_coe.mp large) with
            ⟨_, power, raised, powerAmounts⟩ | ⟨beyond, _⟩
          · exact ⟨_, power, raised, rfl, powerAmounts⟩
          · exact absurd (within base rfl) (not_lt.mpr beyond)

/-- Beyond the range no power of a numeral from one on is a floating point number. -/
theorem within_of_power (amounts : numeral.Amounts amount) (large : 1 ≤ amount)
    (raised : numeral.pow exponent = .ok power) (read : power.toBinary64 = .ok number) :
    ∀ exact : Rat, amount = exact → exact ^ exponent < overflowLimit := by
  rintro exact rfl
  generalize same : (exact : WithTop Rat) = amount at amounts
  cases amounts with
  | int count =>
      cases WithTop.coe_injective same
      cases raised
      have fits := fits_of_toBinary64 (.int (count ^ exponent)) (by rwa [Int.natCast_pow])
      exact_mod_cast fits _ rfl
  | float amounts =>
      subst same
      rcases pow_of_amounts amounts (WithTop.coe_le_coe.mp large) with ⟨within, _⟩ | ⟨_, failed⟩
      · exact within
      · cases raised.symm.trans failed

theorem amounts_power (amounts : numeral.Amounts amount) (large : 1 ≤ amount)
    (raised : numeral.pow exponent = .ok power) (read : power.toBinary64 = .ok number) :
    number.Amounts (powerAmount amount exponent) := by
  rcases exists_power amounts large (within_of_power amounts large raised read) with
    ⟨_, _, same, sameRead, powerAmounts⟩
  cases raised.symm.trans same
  cases read.symm.trans sameRead
  exact powerAmounts

end Readings

theorem isNonneg_one : (float (ofInt 1)).IsNonneg :=
  Or.inr ⟨_, .float (amounts_ofInt 1)⟩

theorem isNonneg_zero : (float Binary64.zero).IsNonneg :=
  Or.inr ⟨_, .float (.finite nofun)⟩

theorem isNonneg_powFinite {negative : Bool} (nonneg : 0 ≤ exact)
    (sign : negative = true → exact = 0)
    (raised : powFinite negative exact exponent = .ok number) : (float number).IsNonneg := by
  unfold powFinite at raised
  split at raised
  · cases raised
    split
    · exact isNonneg_one
    · exact isNonneg_zero
  · next nonzero =>
      have positive : negative = false := Bool.eq_false_iff.mpr (nonzero ∘ sign)
      subst positive
      split at raised
      · cases raised
      · cases raised
        exact isNonneg_zero
      · simp only [Bool.false_and, Bool.false_eq_true, if_false] at raised
        split at raised <;> cases raised
        exact Or.inr ⟨_, .float (amounts_ofRat (pow_nonneg nonneg exponent))⟩

/-- A power of a numeral that is not below zero is not below zero. -/
theorem isNonneg_pow (nonneg : numeral.IsNonneg) (raised : numeral.pow exponent = .ok power) :
    power.IsNonneg := by
  rcases nonneg with rfl | ⟨amount, amounts⟩
  · cases raised
    split
    · exact isNonneg_one
    · exact Or.inl rfl
  cases amounts with
  | int count =>
      cases raised
      have amounts := Amounts.int (count ^ exponent)
      rw [Int.natCast_pow] at amounts
      exact Or.inr ⟨_, amounts⟩
  | @float number amount amounts =>
      cases amounts with
      | infinite =>
          cases raised
          split
          · exact isNonneg_one
          · exact Or.inr ⟨_, .float .infinite⟩
      | @finite negative mantissa place sign =>
          have amounts : (finite negative mantissa place).Amounts (scaled mantissa place : Rat) :=
            .finite sign
          have value := amounts.toRat?_eq
          have least := scaled_nonneg mantissa place
          simp only [pow, value, Option.getD_some, if_neg (not_lt.mpr least)] at raised
          rcases Outcome.bind_eq_ok_iff.mp raised with ⟨number, rounded, made⟩
          cases made
          refine isNonneg_powFinite least ?_ rounded
          intro below
          rw [sign below, scaled, Nat.cast_zero, zero_mul]

end ContractClient.Numeral
