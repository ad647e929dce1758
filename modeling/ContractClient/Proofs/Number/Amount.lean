import ContractClient.Number.Numeral
import ContractClient.Proofs.Number.Nearest
import ContractClient.Proofs.Outcome
import Mathlib.Order.WithBot

/-!
# Amounts

A numeral that is neither below zero nor no number at all amounts to a rational number, or to more
than all of them. Numerals are compared by their amounts, and a product, a power or a quotient has
the amount that the exact one is rounded to (`Binary64.rounded`), unless there is none.
-/

namespace ContractClient

namespace Binary64

/-- What a number amounts to that is not below zero. -/
inductive Amounts : Binary64 → WithTop Rat → Prop where
  | finite {negative : Bool} {mantissa : Nat} {exponent : Int}
      (sign : negative = true → mantissa = 0) :
      Amounts (.finite negative mantissa exponent) (scaled mantissa exponent : Rat)
  | infinite : Amounts (.infinite false) ⊤

/-- What an exact number amounts to when it is rounded. -/
def rounded (exact : Rat) : WithTop Rat :=
  if exact < overflowLimit then (nearest exact : Rat) else ⊤

section Amounts

variable {number left right : Binary64} {amount least most : WithTop Rat} {exact other : Rat}

theorem Amounts.nonneg (amounts : number.Amounts amount) : 0 ≤ amount := by
  cases amounts with
  | finite _ => exact WithTop.coe_nonneg.mpr (scaled_nonneg _ _)
  | infinite => exact le_top

theorem Amounts.unique (amounts : number.Amounts least) (again : number.Amounts most) :
    least = most := by
  cases amounts <;> cases again <;> rfl

theorem Amounts.exists_finite (amounts : number.Amounts (exact : Rat)) :
    ∃ negative mantissa exponent, number = .finite negative mantissa exponent ∧
      (negative = true → mantissa = 0) ∧ exact = scaled mantissa exponent := by
  generalize same : ((exact : Rat) : WithTop Rat) = amount at amounts
  cases amounts with
  | infinite => cases same
  | @finite negative mantissa exponent sign =>
      exact ⟨negative, mantissa, exponent, rfl, sign, WithTop.coe_injective same⟩

/-- A finite amount is the value of the number. -/
theorem Amounts.toRat?_eq (amounts : number.Amounts (exact : Rat)) :
    number.toRat? = some exact := by
  rcases amounts.exists_finite with ⟨negative, mantissa, exponent, rfl, sign, rfl⟩
  rw [toRat?_finite]
  cases negative
  · rfl
  · simp [sign rfl, scaled]

theorem Amounts.eq_infinite (amounts : number.Amounts ⊤) : number = .infinite false := by
  generalize same : (⊤ : WithTop Rat) = amount at amounts
  cases amounts with
  | infinite => rfl
  | finite _ => cases same

/-- Amounts are compared as numbers are. -/
theorem lt_eq_true_iff (amounts : left.Amounts least) (others : right.Amounts most) :
    left.lt right = true ↔ least < most := by
  cases amounts with
  | infinite => cases others <;> simp [lt]
  | @finite negative mantissa exponent sign =>
      cases others with
      | infinite => simp [lt, WithTop.coe_lt_top]
      | @finite other factor power otherSign =>
          simp only [lt, (Amounts.finite sign).toRat?_eq, (Amounts.finite otherSign).toRat?_eq,
            Option.getD_some, decide_eq_true_eq, WithTop.coe_lt_coe]

theorem overflowLimit_pos : 0 < overflowLimit :=
  mul_pos (by norm_num) (two_zpow_pos 970)

theorem two_pow_lt_overflowLimit {bits : Nat} (few : bits < 1024) :
    (2 : Rat) ^ bits < overflowLimit :=
  calc (2 : Rat) ^ bits
      = 2 ^ (bits : Int) := (zpow_natCast 2 bits).symm
    _ ≤ 2 ^ (970 + 53 : Int) := zpow_le_zpow_right₀ (by norm_num) (by omega)
    _ = scaled (2 ^ 53) 970 := (scaled_two_pow 970 53).symm
    _ < overflowLimit := lt_of_not_ge fun beyond => by
      have := scaled_le_scaled_iff.mp beyond
      norm_num at this

theorem overflowLimit_le_two_pow_iff {bits : Nat} : overflowLimit ≤ 2 ^ bits ↔ 1024 ≤ bits := by
  constructor
  · intro beyond
    by_contra! few
    exact absurd beyond (not_le.mpr (two_pow_lt_overflowLimit few))
  · intro many
    calc overflowLimit
        ≤ scaled (2 ^ 54) 970 := scaled_le_scaled_iff.mpr (by norm_num)
      _ = 2 ^ (970 + 54 : Int) := scaled_two_pow 970 54
      _ ≤ 2 ^ (bits : Int) := zpow_le_zpow_right₀ (by norm_num) (by omega)
      _ = 2 ^ bits := zpow_natCast 2 bits

theorem rounded_of_lt (within : exact < overflowLimit) : rounded exact = (nearest exact : Rat) :=
  if_pos within

theorem rounded_of_le (beyond : overflowLimit ≤ exact) : rounded exact = ⊤ :=
  if_neg (not_lt.mpr beyond)

theorem rounded_mono (nonneg : 0 ≤ exact) (order : exact ≤ other) :
    rounded exact ≤ rounded other := by
  rcases lt_or_ge other overflowLimit with within | beyond
  · rw [rounded_of_lt within, rounded_of_lt (order.trans_lt within), WithTop.coe_le_coe]
    exact nearest_mono nonneg order
  · rw [rounded_of_le beyond]
    exact le_top

theorem amounts_round {negative : Bool} {numerator denominator : Nat} (divides : 0 < denominator)
    (sign : negative = true → numerator = 0) :
    (round negative numerator denominator).Amounts (rounded ((numerator : Rat) / denominator)) := by
  rcases lt_or_ge ((numerator : Rat) / denominator) overflowLimit with within | beyond
  · rw [rounded_of_lt within]
    cases negative with
    | true =>
        cases sign rfl
        have zero : nearest (((0 : Nat) : Rat) / denominator) = scaled 0 minExponent := by
          rw [← gridValue_eq_nearest divides, gridValue_zero divides, scaled, Nat.cast_zero,
            zero_mul]
        rw [zero]
        exact .finite fun _ => rfl
    | false =>
        rcases round_of_lt divides within with ⟨mantissa, exponent, same, value⟩
        rw [same, ← value]
        exact .finite fun different => absurd different Bool.false_ne_true
  · rw [rounded_of_le beyond, round_of_le divides beyond]
    cases negative with
    | false => exact .infinite
    | true =>
        cases sign rfl
        rw [Nat.cast_zero, zero_div] at beyond
        exact absurd beyond (not_le.mpr overflowLimit_pos)

theorem amounts_ofInt (number : Nat) : (ofInt number).Amounts (rounded number) := by
  have sign : decide ((number : Int) < 0) = true → number = 0 := by
    intro below
    have := of_decide_eq_true below
    omega
  have amounts := amounts_round Nat.one_pos sign
  rwa [Nat.cast_one, div_one] at amounts

/-- Small whole numbers are not rounded. -/
theorem rounded_natCast {number : Nat} (small : number ≤ 2 ^ 53) :
    rounded number = (number : Rat) := by
  have within : (number : Rat) < overflowLimit := by
    refine lt_of_le_of_lt ?_ (two_pow_lt_overflowLimit (by norm_num : 53 < 1024))
    exact_mod_cast small
  rw [rounded_of_lt within, nearest_of_isOnGrid (Nat.cast_nonneg number) (isOnGrid_natCast small)]

theorem nearest_natCast_eq_zero_iff {count : Nat} : nearest (count : Rat) = 0 ↔ count = 0 := by
  constructor
  · intro zero
    by_contra positive
    have one : nearest ((1 : Nat) : Rat) = (1 : Nat) :=
      nearest_of_isOnGrid (by simp) (isOnGrid_natCast (by norm_num))
    have order : ((1 : Nat) : Rat) ≤ count := by exact_mod_cast Nat.one_le_iff_ne_zero.mpr positive
    have more := nearest_mono (by simp) order
    rw [one, zero] at more
    norm_num at more
  · rintro rfl
    exact nearest_of_isOnGrid (by simp) (isOnGrid_natCast (by norm_num))

theorem amounts_ofRat (nonneg : 0 ≤ exact) : (ofRat exact).Amounts (rounded exact) := by
  have sign : decide (exact.num < 0) = true → exact.num.natAbs = 0 := by
    intro below
    have := Rat.num_nonneg.mpr nonneg
    have := of_decide_eq_true below
    omega
  have amounts := amounts_round exact.den_pos sign
  rwa [div_natAbs nonneg] at amounts

/-- A product is rounded once. -/
theorem amounts_mul (amounts : left.Amounts (exact : Rat)) (others : right.Amounts (other : Rat)) :
    (left.mul right).Amounts (rounded (exact * other)) := by
  rcases amounts.exists_finite with ⟨negative, mantissa, exponent, rfl, sign, rfl⟩
  rcases others.exists_finite with ⟨otherNegative, factor, power, rfl, otherSign, rfl⟩
  have product : scaled mantissa exponent * scaled factor power =
      scaled (mantissa * factor) (exponent + power) := by
    rw [scaled, scaled, scaled, zpow_add₀ (by norm_num)]
    push_cast
    ring
  rw [product, scaled_eq_div]
  refine amounts_round (powerOfTwo_pos _).2 fun different => ?_
  cases negative
  · cases otherNegative
    · cases different
    · rw [otherSign rfl, Nat.mul_zero, Nat.zero_mul]
  · rw [sign rfl, Nat.zero_mul, Nat.zero_mul]

theorem mul_comm (left right : Binary64) : left.mul right = right.mul left := by
  have signs : ∀ one other : Bool, (one != other) = (other != one) := by decide
  cases left <;> cases right <;>
    simp [mul, signs, isZero, isNegative, Int.add_comm, Nat.mul_comm]

theorem Amounts.isZero_iff (amounts : number.Amounts amount) :
    number.isZero = true ↔ amount = 0 := by
  cases amounts with
  | infinite => simp [isZero]
  | @finite negative mantissa exponent sign =>
      rw [← WithTop.coe_zero, WithTop.coe_inj, scaled, mul_eq_zero,
        or_iff_left (two_zpow_pos exponent).ne', Nat.cast_eq_zero]
      exact decide_eq_true_iff

/-- Infinity stays what it is when it is multiplied, unless by zero. -/
theorem mul_infinite (amounts : number.Amounts amount) :
    number.mul (.infinite false) = if amount = 0 then .notANumber else .infinite false := by
  have zero := amounts.isZero_iff
  cases amounts with
  | infinite => rfl
  | @finite negative mantissa exponent sign =>
      unfold mul
      dsimp only
      split
      · next isZero => rw [if_pos (zero.mp isZero)]
      · next notZero =>
          rw [if_neg (notZero ∘ zero.mpr)]
          cases negative
          · rfl
          · exact absurd (decide_eq_true (sign rfl)) notZero

theorem not_amounts_notANumber : ¬notANumber.Amounts amount :=
  nofun

/-- A product with a number from one on amounts to something, unless it is zero times infinity. -/
theorem exists_amounts_mul (amounts : left.Amounts least) (others : right.Amounts most)
    (large : 1 ≤ most) (defined : most = ⊤ → least ≠ 0) :
    ∃ amount, (left.mul right).Amounts amount := by
  cases most with
  | top =>
      rw [others.eq_infinite, mul_infinite amounts, if_neg (defined rfl)]
      exact ⟨⊤, .infinite⟩
  | coe other =>
      cases least with
      | top =>
          have nonzero : (other : WithTop Rat) ≠ 0 := (one_pos.trans_le large).ne'
          rw [amounts.eq_infinite, mul_comm, mul_infinite others, if_neg nonzero]
          exact ⟨⊤, .infinite⟩
      | coe exact => exact ⟨_, amounts_mul amounts others⟩

/-- A product grows with a factor from one on. -/
theorem mul_mono {second : Binary64} {factor larger first last : WithTop Rat}
    (amounts : number.Amounts amount) (others : right.Amounts factor)
    (seconds : second.Amounts larger) (large : 1 ≤ factor) (order : factor ≤ larger)
    (product : (number.mul right).Amounts first) (next : (number.mul second).Amounts last) :
    first ≤ last := by
  cases larger with
  | top =>
      rw [seconds.eq_infinite, mul_infinite amounts] at next
      split at next
      · exact absurd next not_amounts_notANumber
      · cases next
        exact le_top
  | coe more =>
      cases factor with
      | top => exact absurd (top_le_iff.mp order) (WithTop.coe_ne_top)
      | coe less =>
          cases amount with
          | top =>
              have nonzero : (more : WithTop Rat) ≠ 0 :=
                (one_pos.trans_le (large.trans order)).ne'
              rw [amounts.eq_infinite, mul_comm, mul_infinite seconds, if_neg nonzero] at next
              cases next
              exact le_top
          | coe exact =>
              rw [product.unique (amounts_mul amounts others),
                next.unique (amounts_mul amounts seconds)]
              have exactNonneg := WithTop.coe_nonneg.mp amounts.nonneg
              have lessNonneg := WithTop.coe_nonneg.mp others.nonneg
              exact rounded_mono (mul_nonneg exactNonneg lessNonneg)
                (mul_le_mul_of_nonneg_left (WithTop.coe_le_coe.mp order) exactNonneg)

/-- A quotient is rounded once. -/
theorem amounts_div? (amounts : number.Amounts (exact : Rat))
    (others : right.Amounts (other : Rat)) (nonzero : other ≠ 0) :
    ∃ quotient, number.div? right = some quotient ∧ quotient.Amounts (rounded (exact / other)) := by
  rcases amounts.exists_finite with ⟨negative, mantissa, exponent, rfl, sign, rfl⟩
  rcases others.exists_finite with ⟨otherNegative, factor, power, rfl, otherSign, rfl⟩
  have divides : 0 < factor := by
    rw [Nat.pos_iff_ne_zero]
    rintro rfl
    exact nonzero (by simp [scaled])
  have positive : otherNegative = false := by
    cases otherNegative
    · rfl
    · exact absurd (otherSign rfl) divides.ne'
  have quotient : scaled mantissa exponent / scaled factor power =
      ((mantissa * (powerOfTwo (exponent - power)).1 : Nat) : Rat) /
        (factor * (powerOfTwo (exponent - power)).2 : Nat) := by
    have powers := powerOfTwo_eq (exponent - power)
    rw [zpow_sub₀ (by norm_num)] at powers
    push_cast
    rw [scaled, scaled, mul_div_mul_comm, mul_div_mul_comm, powers]
  refine ⟨_, if_neg (by simp [isZero, divides.ne']), ?_⟩
  rw [quotient]
  refine amounts_round (Nat.mul_pos divides (powerOfTwo_pos _).2) fun different => ?_
  rw [positive, bne_iff_ne, ne_eq, Bool.not_eq_false] at different
  rw [sign different, Nat.zero_mul]

/-- A quotient by a finite number is finite only if the dividend is. -/
theorem isFinite_of_div? {quotient : Binary64} {value : Rat} (divisor : right.isFinite = true)
    (divided : number.div? right = some quotient) (finite : quotient.toRat? = some value) :
    number.isFinite = true := by
  cases right with
  | finite otherNegative factor power =>
      unfold div? at divided
      split at divided <;> cases divided
      cases number with
      | finite negative mantissa exponent => rfl
      | infinite negative => cases finite
      | notANumber => cases finite
  | infinite _ => cases divisor
  | notANumber => cases divisor

end Amounts

end Binary64

namespace Numeral

open Binary64

variable {numeral left right : Numeral} {amount least most : WithTop Rat} {exact : Rat}
  {number : Binary64}

/-- What a numeral amounts to that is not below zero. -/
inductive Amounts : Numeral → WithTop Rat → Prop where
  | int (count : Nat) : Amounts (.int count) (count : Rat)
  | float {number : Binary64} {amount : WithTop Rat} (amounts : number.Amounts amount) :
      Amounts (.float number) amount

theorem Amounts.nonneg (amounts : numeral.Amounts amount) : 0 ≤ amount := by
  cases amounts with
  | int count => exact WithTop.coe_nonneg.mpr (Nat.cast_nonneg count)
  | float amounts => exact amounts.nonneg

theorem Amounts.unique (amounts : numeral.Amounts least) (again : numeral.Amounts most) :
    least = most := by
  cases amounts with
  | int count =>
      cases again
      rfl
  | float amounts =>
      cases again with
      | float again => exact Binary64.Amounts.unique amounts again

theorem lt_eq_true_iff (amounts : left.Amounts least) (others : right.Amounts most) :
    left.lt right = true ↔ least < most := by
  cases amounts with
  | int count =>
      cases others with
      | int other =>
          simp only [lt, decide_eq_true_eq, WithTop.coe_lt_coe, Nat.cast_lt]
      | @float number amount others =>
          cases others with
          | infinite => simp [lt]
          | @finite negative mantissa exponent sign =>
              simp only [lt, (Binary64.Amounts.finite sign).toRat?_eq, Option.getD_some,
                decide_eq_true_eq, WithTop.coe_lt_coe, Int.cast_natCast]
  | @float number amount amounts =>
      cases others with
      | float others => exact Binary64.lt_eq_true_iff amounts others
      | int other =>
          cases amounts with
          | infinite => simp [lt]
          | @finite negative mantissa exponent sign =>
              simp only [lt, (Binary64.Amounts.finite sign).toRat?_eq, Option.getD_some,
                decide_eq_true_eq, WithTop.coe_lt_coe, Int.cast_natCast]

theorem le_of_amounts (amounts : left.Amounts least) (others : right.Amounts most)
    (order : least ≤ most) : left.le right = true := by
  have isNumber : ∀ {numeral : Numeral} {amount : WithTop Rat}, numeral.Amounts amount →
      (numeral != .float .notANumber) = true := by
    intro numeral amount amounts
    rw [bne_iff_ne]
    rintro rfl
    cases amounts with
    | float amounts => cases amounts
  have notBelow : right.lt left = false := by
    rw [Bool.eq_false_iff, ne_eq, lt_eq_true_iff others amounts, not_lt]
    exact order
  rw [le, isNumber amounts, isNumber others, notBelow]
  rfl

/-- A whole number that is too large is no floating point number; any other numeral is read as
one. -/
def Fits (numeral : Numeral) : Prop :=
  ∀ whole, numeral = .int whole → (whole : Rat) < overflowLimit

theorem exists_toBinary64_natCast {count : Nat} (within : (count : Rat) < overflowLimit) :
    ∃ number, (Numeral.int count).toBinary64 = .ok number ∧
      number.Amounts (nearest count : Rat) := by
  have amounts := amounts_ofInt count
  rw [rounded_of_lt within] at amounts
  rcases amounts.exists_finite with ⟨_, _, _, spelled, _⟩
  exact ⟨_, if_pos (by rw [spelled]; rfl), amounts⟩

theorem exists_toBinary64 (amounts : numeral.Amounts amount) (fits : numeral.Fits) :
    ∃ number read, numeral.toBinary64 = .ok number ∧ number.Amounts read ∧
      (read = 0 ↔ amount = 0) := by
  cases amounts with
  | float amounts => exact ⟨_, _, rfl, amounts, Iff.rfl⟩
  | int count =>
      have within : (count : Rat) < overflowLimit := fits count rfl
      rcases exists_toBinary64_natCast within with ⟨number, read, amounts⟩
      refine ⟨_, _, read, amounts, ?_⟩
      rw [← WithTop.coe_zero, WithTop.coe_inj, WithTop.coe_inj, Nat.cast_eq_zero]
      exact nearest_natCast_eq_zero_iff

theorem fits_of_toBinary64 (amounts : numeral.Amounts amount)
    (read : numeral.toBinary64 = .ok number) : numeral.Fits := by
  rintro whole rfl
  generalize same : Numeral.int whole = numeral at amounts
  cases amounts with
  | float amounts => cases same
  | int count =>
      cases same
      by_contra! beyond
      have amounts := amounts_ofInt count
      rw [rounded_of_le (by exact_mod_cast beyond)] at amounts
      rw [toBinary64, roundInt, amounts.eq_infinite] at read
      cases read

/-- The lower one of two numerals has the lower amount. -/
theorem amounts_min (amounts : left.Amounts least) (others : right.Amounts most) :
    (left.min right).Amounts (least ⊓ most) := by
  rw [min]
  split
  · next below =>
      rw [lt_eq_true_iff others amounts] at below
      rwa [inf_eq_right.mpr below.le]
  · next notBelow =>
      rw [lt_eq_true_iff others amounts, not_lt] at notBelow
      rwa [inf_eq_left.mpr notBelow]

/-- A numeral is divided by a small number, and the quotient is rounded once. A whole number that is
too large for that is not divided. -/
theorem divNat_of_amounts {divisor : Nat} (divides : 0 < divisor) (small : divisor ≤ 2 ^ 53)
    (amounts : numeral.Amounts (exact : Rat)) :
    (∃ quotient, numeral.divNat divisor = .ok quotient ∧
        quotient.Amounts (rounded (exact / divisor))) ∨
      numeral.divNat divisor = Outcome.condition .overflow ∧ overflowLimit ≤ exact / divisor := by
  generalize same : ((exact : Rat) : WithTop Rat) = amount at amounts
  cases amounts with
  | int count =>
      cases WithTop.coe_injective same
      have nonneg : (0 : Rat) ≤ count / divisor := by positivity
      have quotient := amounts_ofRat nonneg
      rw [divNat, Int.cast_natCast]
      split
      · exact Or.inl ⟨_, rfl, quotient⟩
      · next unbounded =>
          refine Or.inr ⟨rfl, ?_⟩
          by_contra! within
          rw [rounded_of_lt within] at quotient
          rcases quotient.exists_finite with ⟨_, _, _, finite, _⟩
          exact unbounded (by rw [finite]; rfl)
  | float amounts =>
      subst same
      have others := amounts_ofInt divisor
      rw [rounded_natCast small] at others
      have nonzero : (divisor : Rat) ≠ 0 := by exact_mod_cast divides.ne'
      rcases amounts_div? amounts others nonzero with ⟨quotient, divided, quotientAmounts⟩
      refine Or.inl ⟨quotient, ?_, quotientAmounts⟩
      simp only [divNat, divided]

/-- A numeral is not below zero: it is no number at all, or it amounts to something. -/
def IsNonneg (numeral : Numeral) : Prop :=
  numeral = .float .notANumber ∨ ∃ amount, numeral.Amounts amount

theorem isNonneg_of_lt (notBelow : numeral.lt (.int 0) = false) : numeral.IsNonneg := by
  cases numeral with
  | int value =>
      simp only [lt, decide_eq_false_iff_not, not_lt] at notBelow
      obtain ⟨count, rfl⟩ := Int.eq_ofNat_of_zero_le notBelow
      exact Or.inr ⟨_, .int count⟩
  | float number =>
      cases number with
      | notANumber => exact Or.inl rfl
      | infinite negative =>
          cases negative
          · exact Or.inr ⟨_, .float .infinite⟩
          · cases notBelow
      | finite negative mantissa exponent =>
          refine Or.inr ⟨_, .float (.finite ?_)⟩
          rintro rfl
          have least := scaled_nonneg mantissa exponent
          simp only [lt, toRat?_finite, if_true, Option.getD_some, decide_eq_false_iff_not, not_lt,
            Int.cast_zero] at notBelow
          have zero : scaled mantissa exponent = 0 := by linarith
          rw [scaled, mul_eq_zero, or_iff_left (two_zpow_pos exponent).ne'] at zero
          exact_mod_cast zero

theorem lt_zero_of_one_le (large : (Numeral.int 1).le numeral = true) :
    numeral.lt (.int 0) = false := by
  simp only [le, Bool.and_eq_true, Bool.not_eq_true'] at large
  have notBelow := large.2
  cases numeral with
  | int value =>
      simp only [lt, decide_eq_false_iff_not, not_lt] at notBelow ⊢
      omega
  | float number =>
      cases number with
      | notANumber => rfl
      | infinite negative => exact notBelow
      | finite negative mantissa exponent =>
          simp only [lt, decide_eq_false_iff_not, not_lt, Int.cast_zero, Int.cast_one] at notBelow ⊢
          exact zero_le_one.trans notBelow

/-- A numeral that is at least one amounts to one or more. -/
theorem exists_amounts_of_one_le (large : (Numeral.int 1).le numeral = true) :
    ∃ amount, numeral.Amounts amount ∧ 1 ≤ amount := by
  have nonneg := lt_zero_of_one_le large
  simp only [le, Bool.and_eq_true, bne_iff_ne, ne_eq, Bool.not_eq_true'] at large
  rcases large with ⟨⟨_, isNumber⟩, notBelow⟩
  rcases isNonneg_of_lt nonneg with same | ⟨amount, amounts⟩
  · exact absurd same isNumber
  · have one : (Numeral.int 1).Amounts ((1 : Nat) : Rat) := Amounts.int 1
    rw [Bool.eq_false_iff, ne_eq, lt_eq_true_iff amounts one, not_lt] at notBelow
    exact ⟨amount, amounts, by simpa using notBelow⟩

theorem isNonneg_min (nonneg : left.IsNonneg) (others : right.IsNonneg) :
    (left.min right).IsNonneg := by
  rw [min]
  split
  · exact others
  · exact nonneg

/-- A numeral that is not below zero is rounded to such a number. -/
theorem isNonneg_toBinary64 (nonneg : numeral.IsNonneg) (read : numeral.toBinary64 = .ok number) :
    (Numeral.float number).IsNonneg := by
  rcases nonneg with rfl | ⟨amount, amounts⟩
  · cases read
    exact Or.inl rfl
  · cases amounts with
    | int count =>
        simp only [toBinary64, roundInt] at read
        split at read <;> cases read
        exact Or.inr ⟨_, .float (amounts_ofInt count)⟩
    | float amounts =>
        cases read
        exact Or.inr ⟨_, .float amounts⟩

theorem isNonneg_mul_infinite (nonneg : (Numeral.float number).IsNonneg) :
    (Numeral.float (number.mul (.infinite false))).IsNonneg := by
  rcases nonneg with same | ⟨amount, amounts⟩
  · cases same
    exact Or.inl rfl
  · cases amounts with
    | float amounts =>
        rw [mul_infinite amounts]
        split
        · exact Or.inl rfl
        · exact Or.inr ⟨_, .float .infinite⟩

theorem isNonneg_mul_float {first second : Binary64} (nonneg : (Numeral.float first).IsNonneg)
    (others : (Numeral.float second).IsNonneg) :
    (Numeral.float (first.mul second)).IsNonneg := by
  rcases nonneg with same | ⟨amount, amounts⟩
  · cases same
    exact Or.inl (by cases second <;> rfl)
  rcases others with same | ⟨otherAmount, otherAmounts⟩
  · cases same
    exact Or.inl (by cases first <;> rfl)
  cases amounts with
  | float amounts =>
      cases otherAmounts with
      | float otherAmounts =>
          cases amount with
          | top =>
              rw [amounts.eq_infinite, Binary64.mul_comm]
              exact isNonneg_mul_infinite (Or.inr ⟨_, .float otherAmounts⟩)
          | coe exact =>
              cases otherAmount with
              | top =>
                  rw [otherAmounts.eq_infinite]
                  exact isNonneg_mul_infinite (Or.inr ⟨_, .float amounts⟩)
              | coe other => exact Or.inr ⟨_, .float (amounts_mul amounts otherAmounts)⟩

/-- A product of numerals that are not below zero is not below zero. -/
theorem isNonneg_mul {product : Numeral} (nonneg : left.IsNonneg) (others : right.IsNonneg)
    (multiplied : left.mul right = .ok product) : product.IsNonneg := by
  unfold mul at multiplied
  split at multiplied
  · next first second =>
      cases multiplied
      rcases nonneg with ⟨⟨⟩⟩ | ⟨_, ⟨count⟩⟩
      rcases others with ⟨⟨⟩⟩ | ⟨_, ⟨other⟩⟩
      exact Or.inr ⟨_, .int (count * other)⟩
  · rcases Outcome.bind_eq_ok_iff.mp multiplied with ⟨first, read, rest⟩
    rcases Outcome.bind_eq_ok_iff.mp rest with ⟨second, readSecond, made⟩
    cases made
    exact isNonneg_mul_float (isNonneg_toBinary64 nonneg read)
      (isNonneg_toBinary64 others readSecond)

/-- A numeral that is not below zero amounts to a number if its quotient does. -/
theorem exists_amounts_of_divNat {divisor : Nat} {quotient : Binary64} {value : Rat}
    (divides : 0 < divisor) (small : divisor ≤ 2 ^ 53) (nonneg : numeral.IsNonneg)
    (divided : numeral.divNat divisor = .ok quotient) (finite : quotient.toRat? = some value) :
    ∃ exact : Rat, numeral.Amounts exact ∧ exact / divisor < overflowLimit ∧
      value = nearest (exact / divisor) := by
  have isFinite : ∀ number, numeral = .float number → number.isFinite = true := by
    rintro number rfl
    have others := amounts_ofInt divisor
    rw [rounded_natCast small] at others
    rcases others.exists_finite with ⟨_, _, _, spelled, _⟩
    have whole : (ofInt divisor).isFinite = true := by rw [spelled]; rfl
    simp only [divNat] at divided
    split at divided
    · next found =>
        cases divided
        exact isFinite_of_div? whole found finite
    · cases divided
  rcases nonneg with same | ⟨amount, amounts⟩
  · cases isFinite _ same
  cases amount with
  | top =>
      generalize infinite : (⊤ : WithTop Rat) = amount at amounts
      cases amounts with
      | int count => cases infinite
      | float amounts =>
          rw [← infinite] at amounts
          cases amounts.eq_infinite ▸ isFinite _ rfl
  | coe exact =>
      refine ⟨exact, amounts, ?_⟩
      rcases divNat_of_amounts divides small amounts with ⟨other, same, rounds⟩ | ⟨failed, _⟩
      · cases divided.symm.trans same
        rcases lt_or_ge (exact / divisor) overflowLimit with within | beyond
        · rw [rounded_of_lt within] at rounds
          exact ⟨within, Option.some.inj (finite.symm.trans rounds.toRat?_eq)⟩
        · rw [rounded_of_le beyond] at rounds
          rw [rounds.eq_infinite] at finite
          cases finite
      · cases divided.symm.trans failed

end Numeral

end ContractClient
