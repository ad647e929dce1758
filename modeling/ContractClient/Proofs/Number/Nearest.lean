import ContractClient.Proofs.Number.Rounding

/-!
# The nearest number

What a quotient is rounded to depends on nothing but the quotient, and larger quotients are not
rounded to smaller numbers (`Binary64.nearest_mono`). Below the limit the result of rounding is the
nearest number of the grid (`Binary64.round_of_lt`); from there on it is infinite
(`Binary64.round_of_le`).
-/

namespace ContractClient.Binary64

section Quotients

variable {numerator denominator other divisor bound : Nat}

/-- A quotient is rounded beyond a whole number if it lies beyond the middle between that and the
next one, or in the middle if the number is odd. -/
theorem lt_roundQuotient_iff (positive : 0 < denominator) :
    bound < roundQuotient numerator denominator ↔
      (2 * bound + 1) * denominator < 2 * numerator ∨
        (2 * bound + 1) * denominator = 2 * numerator ∧ bound % 2 = 1 := by
  have split := Nat.div_add_mod numerator denominator
  have rest := Nat.mod_lt numerator positive
  unfold roundQuotient
  generalize numerator / denominator = quotient at split
  generalize numerator % denominator = remainder at split rest
  dsimp only
  rcases Nat.lt_trichotomy bound quotient with less | rfl | more
  · have room : (bound + 1) * denominator ≤ quotient * denominator := Nat.mul_le_mul_right _ less
    grind
  · grind
  · have room : (quotient + 1) * denominator ≤ bound * denominator := Nat.mul_le_mul_right _ more
    grind

theorem roundQuotient_mono (positive : 0 < denominator) (divides : 0 < divisor)
    (order : numerator * divisor ≤ other * denominator) :
    roundQuotient numerator denominator ≤ roundQuotient other divisor := by
  by_contra! less
  have notBeyond := lt_irrefl (roundQuotient other divisor)
  rw [lt_roundQuotient_iff divides] at notBeyond
  rw [lt_roundQuotient_iff positive] at less
  generalize roundQuotient other divisor = bound at less notBeyond
  have most : 2 * other ≤ (2 * bound + 1) * divisor := by omega
  have wider : 2 * other * denominator ≤ (2 * bound + 1) * divisor * denominator :=
    Nat.mul_le_mul_right _ most
  rcases less with beyond | ⟨middle, odd⟩
  · have narrower := Nat.mul_lt_mul_of_pos_right beyond divides
    grind
  · -- In the middle both quotients are the same, so that both are rounded up.
    have same : (2 * bound + 1) * denominator * divisor = 2 * numerator * divisor := by rw [middle]
    have equal : (2 * bound + 1) * divisor * denominator = 2 * other * denominator := by grind
    have sameMiddle := Nat.eq_of_mul_eq_mul_right positive equal
    exact notBeyond (Or.inr ⟨sameMiddle, odd⟩)

end Quotients

section Quotients

variable {numerator denominator other divisor : Nat}

theorem magnitude_mono (positive : 0 < numerator) (divides : 0 < denominator)
    (otherPositive : 0 < other) (otherDivides : 0 < divisor)
    (order : (numerator : Rat) / denominator ≤ other / divisor) :
    magnitude numerator denominator ≤ magnitude other divisor := by
  have below : (2 : Rat) ^ magnitude numerator denominator < 2 ^ (magnitude other divisor + 1) :=
    calc (2 : Rat) ^ magnitude numerator denominator
        ≤ numerator / denominator := (magnitude_spec positive divides).1
      _ ≤ other / divisor := order
      _ < 2 ^ (magnitude other divisor + 1) := (magnitude_spec otherPositive otherDivides).2
  rw [zpow_lt_zpow_iff_right₀ (by norm_num)] at below
  omega

/-- The number of the grid that a quotient is rounded to. -/
def gridValue (numerator denominator : Nat) : Rat :=
  scaled (gridMantissa numerator denominator) (gridExponent numerator denominator)

theorem gridValue_nonneg : 0 ≤ gridValue numerator denominator :=
  scaled_nonneg _ _

theorem gridValue_zero (divides : 0 < denominator) : gridValue 0 denominator = 0 := by
  have none : gridMantissa 0 denominator ≤ 0 := by
    apply gridMantissa_le divides
    simp [scaled]
  rw [gridValue, Nat.le_zero.mp none, scaled, Nat.cast_zero, zero_mul]

theorem gridValue_mono (divides : 0 < denominator) (otherDivides : 0 < divisor)
    (order : (numerator : Rat) / denominator ≤ other / divisor) :
    gridValue numerator denominator ≤ gridValue other divisor := by
  rcases Nat.eq_zero_or_pos numerator with rfl | positive
  · rw [gridValue_zero divides]
    exact gridValue_nonneg
  have crossed : numerator * divisor ≤ other * denominator := by
    have divides' : (0 : Rat) < denominator := by exact_mod_cast divides
    have otherDivides' : (0 : Rat) < divisor := by exact_mod_cast otherDivides
    rw [div_le_div_iff₀ divides' otherDivides'] at order
    exact_mod_cast order
  have otherPositive : 0 < other := by
    by_contra! none
    have : 0 < numerator * divisor := Nat.mul_pos positive otherDivides
    rw [Nat.le_zero.mp none, Nat.zero_mul] at crossed
    omega
  have exponents : gridExponent numerator denominator ≤ gridExponent other divisor := by
    have := magnitude_mono positive divides otherPositive otherDivides order
    unfold gridExponent
    omega
  rcases exponents.lt_or_eq with finer | same
  · -- The smaller quotient is below every number with the larger exponent.
    have least : 2 ^ 52 ≤ gridMantissa other divisor := by
      apply le_gridMantissa otherDivides
      rw [scaled_two_pow]
      have fits : minExponent ≤ gridExponent numerator denominator := Int.le_max_right _ _
      exact le_of_gridExponent otherDivides otherPositive (by omega)
    calc gridValue numerator denominator
        ≤ 2 ^ (gridExponent numerator denominator + 53) :=
          scaled_le_zpow (gridMantissa_le_two_pow divides positive)
      _ ≤ 2 ^ (gridExponent other divisor + 52) :=
          zpow_le_zpow_right₀ (by norm_num) (by omega)
      _ = scaled (2 ^ 52) (gridExponent other divisor) := (scaled_two_pow _ 52).symm
      _ ≤ gridValue other divisor := scaled_le_scaled_iff.mpr least
  · rw [gridValue, gridValue, same, scaled_le_scaled_iff, gridMantissa, gridMantissa, same]
    have up := (powerOfTwo_pos (gridExponent other divisor)).1
    refine roundQuotient_mono (Nat.mul_pos divides up) (Nat.mul_pos otherDivides up) ?_
    have wider := Nat.mul_le_mul_right
      ((powerOfTwo (gridExponent other divisor)).1 * (powerOfTwo (gridExponent other divisor)).2)
      crossed
    grind

end Quotients

/-- The number of the grid that is nearest to a number that is not negative; of two the one with the
even mantissa. -/
def nearest (exact : Rat) : Rat :=
  gridValue exact.num.natAbs exact.den

section Nearest

variable {exact other : Rat} {numerator denominator : Nat}

theorem div_natAbs (nonneg : 0 ≤ exact) : (exact.num.natAbs : Rat) / exact.den = exact := by
  have whole : ((exact.num.natAbs : Int) : Rat) = exact.num :=
    congrArg _ (Int.natAbs_of_nonneg (Rat.num_nonneg.mpr nonneg))
  rw [← Int.cast_natCast exact.num.natAbs, whole, Rat.num_div_den]

theorem nearest_nonneg : 0 ≤ nearest exact :=
  gridValue_nonneg

theorem nearest_mono (nonneg : 0 ≤ exact) (order : exact ≤ other) :
    nearest exact ≤ nearest other := by
  refine gridValue_mono exact.den_pos other.den_pos ?_
  rwa [div_natAbs nonneg, div_natAbs (nonneg.trans order)]

theorem gridValue_eq_nearest (divides : 0 < denominator) :
    gridValue numerator denominator = nearest ((numerator : Rat) / denominator) := by
  have nonneg : (0 : Rat) ≤ (numerator : Rat) / denominator := by positivity
  have same := div_natAbs nonneg
  apply le_antisymm
  · exact gridValue_mono divides (Rat.den_pos _) same.ge
  · exact gridValue_mono (Rat.den_pos _) divides same.le

/-- What is on the grid is its own nearest number. -/
theorem nearest_of_isOnGrid (nonneg : 0 ≤ exact) (onGrid : IsOnGrid exact) :
    nearest exact = exact := by
  rcases nonneg.eq_or_lt with rfl | positive
  · exact gridValue_zero (Rat.den_pos 0)
  · have faithful := isFaithful_gridMantissa exact.den_pos
      (Int.natAbs_pos.mpr (Rat.num_pos.mpr positive).ne')
    rw [div_natAbs nonneg] at faithful
    exact faithful.eq_of_isOnGrid onGrid

end Nearest

section Round

variable {numerator denominator : Nat} {negative : Bool}

theorem round_of_le (divides : 0 < denominator)
    (beyond : overflowLimit ≤ (numerator : Rat) / denominator) :
    round negative numerator denominator = .infinite negative := by
  have rounds := roundsTo_round divides negative numerator
  generalize round negative numerator denominator = rounded at rounds
  cases rounds with
  | infinite _ => rfl
  | finite within _ _ => exact absurd beyond (not_le.mpr within)

theorem round_of_lt (divides : 0 < denominator)
    (within : (numerator : Rat) / denominator < overflowLimit) :
    ∃ mantissa exponent, round negative numerator denominator = .finite negative mantissa exponent ∧
      scaled mantissa exponent = nearest ((numerator : Rat) / denominator) := by
  rw [← gridValue_eq_nearest divides]
  rcases Nat.eq_zero_or_pos numerator with rfl | positive
  · refine ⟨0, minExponent, rfl, ?_⟩
    rw [gridValue_zero divides, scaled, Nat.cast_zero, zero_mul]
  · have limit := overflowLimit_le_iff divides positive
    rw [← not_le, limit] at within
    have most := gridMantissa_le_two_pow divides positive
    rw [round_eq negative positive]
    dsimp only
    split_ifs with carried beyond beyond
    · omega
    · refine ⟨_, _, rfl, ?_⟩
      rw [gridValue, carried]
      exact scaled_add (2 ^ 52) _ 1
    · omega
    · exact ⟨_, _, rfl, rfl⟩

end Round

end ContractClient.Binary64
