import ContractClient.Number.Binary64
import Mathlib.Algebra.Order.Field.Power
import Mathlib.Data.Rat.Cast.Order
import Mathlib.Tactic.Linarith
import Mathlib.Tactic.NormNum
import Mathlib.Tactic.Positivity
import Mathlib.Tactic.Ring

/-!
# Rounding

A number is on the grid if it has a mantissa of 53 bits and an exponent that is not too small. A
quotient is rounded faithfully: no number of the grid lies strictly between the quotient and what it
is rounded to. It is rounded to a finite number if it is below `overflowLimit`, and to infinity from
there on (`Binary64.roundsTo_round`). On the grid the number after another one is close to it
(`Binary64.IsOnGrid.exists_next`), so little is lost by rounding.
-/

namespace ContractClient.Binary64

/-- The number `mantissa * 2 ^ exponent`. -/
def scaled (mantissa : Nat) (exponent : Int) : Rat :=
  mantissa * 2 ^ exponent

theorem two_zpow_pos (exponent : Int) : (0 : Rat) < 2 ^ exponent :=
  zpow_pos (by norm_num) exponent

theorem powerOfTwo_pos (exponent : Int) :
    0 < (powerOfTwo exponent).1 ∧ 0 < (powerOfTwo exponent).2 :=
  ⟨Nat.two_pow_pos _, Nat.two_pow_pos _⟩

theorem powerOfTwo_eq (exponent : Int) :
    ((powerOfTwo exponent).1 : Rat) / (powerOfTwo exponent).2 = 2 ^ exponent := by
  rcases Int.le_total 0 exponent with positive | negative
  · obtain ⟨natural, rfl⟩ := Int.eq_ofNat_of_zero_le positive
    simp [powerOfTwo]
  · obtain ⟨natural, same⟩ := Int.eq_ofNat_of_zero_le (Int.neg_nonneg_of_nonpos negative)
    obtain rfl : exponent = -natural := by omega
    simp [powerOfTwo]

theorem scaled_eq_div (mantissa : Nat) (exponent : Int) : scaled mantissa exponent =
    ((mantissa * (powerOfTwo exponent).1 : Nat) : Rat) / (powerOfTwo exponent).2 := by
  rw [scaled, ← powerOfTwo_eq]
  push_cast
  ring

theorem scaled_le_scaled_iff {mantissa other : Nat} {exponent : Int} :
    scaled mantissa exponent ≤ scaled other exponent ↔ mantissa ≤ other := by
  rw [scaled, scaled, mul_le_mul_iff_left₀ (two_zpow_pos exponent), Nat.cast_le]

theorem scaled_nonneg (mantissa : Nat) (exponent : Int) : 0 ≤ scaled mantissa exponent :=
  mul_nonneg (Nat.cast_nonneg _) (two_zpow_pos exponent).le

/-- A mantissa takes up the difference between two exponents. -/
theorem scaled_add (mantissa : Nat) (exponent : Int) (places : Nat) :
    scaled mantissa (exponent + places) = scaled (mantissa * 2 ^ places) exponent := by
  rw [scaled, scaled, zpow_add₀ (by norm_num)]
  push_cast
  rw [zpow_natCast]
  ring

theorem scaled_two_pow (exponent : Int) (places : Nat) :
    scaled (2 ^ places) exponent = 2 ^ (exponent + places) := by
  have unit : scaled (1 * 2 ^ places) exponent = 2 ^ (exponent + places) := by
    rw [← scaled_add, scaled, Nat.cast_one, one_mul]
  rwa [Nat.one_mul] at unit

theorem scaled_le_zpow {mantissa : Nat} {exponent : Int} (small : mantissa ≤ 2 ^ 53) :
    scaled mantissa exponent ≤ 2 ^ (exponent + 53) :=
  calc scaled mantissa exponent
      ≤ scaled (2 ^ 53) exponent := scaled_le_scaled_iff.mpr small
    _ = 2 ^ (exponent + 53) := scaled_two_pow exponent 53

theorem toRat?_finite (negative : Bool) (mantissa : Nat) (exponent : Int) :
    (finite negative mantissa exponent).toRat? =
      some (if negative then -scaled mantissa exponent else scaled mantissa exponent) := by
  simp only [toRat?, scaled_eq_div]

/-- The whole numbers up to a number are those up to what is left of it. -/
theorem truncate?_finite (mantissa : Nat) (exponent : Int) : ∃ whole : Nat,
    (finite false mantissa exponent).truncate? = some (whole : Int) ∧
      ∀ bound : Nat, bound ≤ whole ↔ (bound : Rat) ≤ scaled mantissa exponent := by
  refine ⟨mantissa * (powerOfTwo exponent).1 / (powerOfTwo exponent).2, rfl, fun bound => ?_⟩
  have positive := (powerOfTwo_pos exponent).2
  rw [Nat.le_div_iff_mul_le positive, scaled_eq_div, le_div_iff₀ (by exact_mod_cast positive)]
  exact_mod_cast Iff.rfl

section Quotients

variable {numerator denominator bound : Nat}

theorem roundQuotient_cases (numerator denominator : Nat) :
    roundQuotient numerator denominator = numerator / denominator ∧
        2 * (numerator % denominator) ≤ denominator ∨
      roundQuotient numerator denominator = numerator / denominator + 1 ∧
        denominator ≤ 2 * (numerator % denominator) := by
  unfold roundQuotient
  grind

theorem le_roundQuotient (positive : 0 < denominator) (enough : bound * denominator ≤ numerator) :
    bound ≤ roundQuotient numerator denominator := by
  have whole : bound ≤ numerator / denominator := (Nat.le_div_iff_mul_le positive).mpr enough
  rcases roundQuotient_cases numerator denominator with ⟨same, _⟩ | ⟨same, _⟩ <;> omega

/-- A quotient below the middle between two whole numbers is rounded down. -/
theorem roundQuotient_le (positive : 0 < denominator)
    (below : 2 * numerator < (2 * bound + 1) * denominator) :
    roundQuotient numerator denominator ≤ bound := by
  have split := Nat.div_add_mod numerator denominator
  by_contra! larger
  rcases Nat.lt_or_ge bound (numerator / denominator) with more | most
  · have : (bound + 1) * denominator ≤ numerator := (Nat.le_div_iff_mul_le positive).mp more
    grind
  · rcases roundQuotient_cases numerator denominator with ⟨same, _⟩ | ⟨same, half⟩
    · omega
    · obtain rfl : bound = numerator / denominator := by omega
      grind

/-- Between an odd number and the next one the middle is rounded up. -/
theorem succ_le_roundQuotient_of_odd (positive : 0 < denominator) (odd : bound % 2 = 1)
    (above : (2 * bound + 1) * denominator ≤ 2 * numerator) :
    bound + 1 ≤ roundQuotient numerator denominator := by
  have split := Nat.div_add_mod numerator denominator
  have whole : bound ≤ numerator / denominator := by
    rw [Nat.le_div_iff_mul_le positive]
    grind
  rcases Nat.lt_or_eq_of_le whole with more | rfl
  · rcases roundQuotient_cases numerator denominator with ⟨same, _⟩ | ⟨same, _⟩ <;> omega
  · have half : denominator ≤ 2 * (numerator % denominator) := by
      grind
    unfold roundQuotient
    grind

end Quotients

section Magnitude

variable {numerator denominator : Nat}

/-- A quotient lies between two powers of two. -/
theorem magnitude_spec (positive : 0 < numerator) (divides : 0 < denominator) :
    (2 : Rat) ^ magnitude numerator denominator ≤ (numerator : Rat) / denominator ∧
      (numerator : Rat) / denominator < 2 ^ (magnitude numerator denominator + 1) := by
  have divides' : (0 : Rat) < denominator := by exact_mod_cast divides
  have numeratorFrom : (2 : Rat) ^ (numerator.log2 : Int) ≤ numerator := by
    rw [zpow_natCast]
    exact_mod_cast Nat.log2_self_le positive.ne'
  have numeratorTo : (numerator : Rat) < 2 ^ ((numerator.log2 : Int) + 1) := by
    rw [zpow_add₀ (by norm_num), zpow_natCast, zpow_one, ← pow_succ]
    exact_mod_cast Nat.lt_log2_self
  have denominatorFrom : (2 : Rat) ^ (denominator.log2 : Int) ≤ denominator := by
    rw [zpow_natCast]
    exact_mod_cast Nat.log2_self_le divides.ne'
  have denominatorTo : (denominator : Rat) < 2 ^ ((denominator.log2 : Int) + 1) := by
    rw [zpow_add₀ (by norm_num), zpow_natCast, zpow_one, ← pow_succ]
    exact_mod_cast Nat.lt_log2_self
  generalize guessed : (numerator.log2 : Int) - (denominator.log2 : Int) = guess
  have split : (numerator.log2 : Int) = guess + denominator.log2 := by omega
  rw [split] at numeratorFrom numeratorTo
  have guessDecides : (powerOfTwo guess).1 * denominator ≤ numerator * (powerOfTwo guess).2 ↔
      (2 : Rat) ^ guess ≤ (numerator : Rat) / denominator := by
    rw [← powerOfTwo_eq, div_le_div_iff₀ (by exact_mod_cast (powerOfTwo_pos guess).2) divides']
    exact_mod_cast Iff.rfl
  have belowNext : (numerator : Rat) / denominator < 2 ^ (guess + 1) := by
    rw [div_lt_iff₀ divides']
    calc (numerator : Rat) < 2 ^ (guess + denominator.log2 + 1) := numeratorTo
      _ = 2 ^ (guess + 1) * 2 ^ (denominator.log2 : Int) := by
        rw [← zpow_add₀ (by norm_num)]
        congr 1
        omega
      _ ≤ 2 ^ (guess + 1) * denominator :=
        mul_le_mul_of_nonneg_left denominatorFrom (two_zpow_pos _).le
  have abovePrevious : (2 : Rat) ^ (guess - 1) ≤ (numerator : Rat) / denominator := by
    rw [le_div_iff₀ divides']
    calc (2 : Rat) ^ (guess - 1) * denominator
        ≤ 2 ^ (guess - 1) * 2 ^ ((denominator.log2 : Int) + 1) :=
          mul_le_mul_of_nonneg_left denominatorTo.le (two_zpow_pos _).le
      _ = 2 ^ (guess + denominator.log2) := by
        rw [← zpow_add₀ (by norm_num)]
        congr 1
        omega
      _ ≤ numerator := numeratorFrom
  have unfolded : magnitude numerator denominator =
      if (2 : Rat) ^ guess ≤ (numerator : Rat) / denominator then guess else guess - 1 := by
    simp only [magnitude, guessed, guessDecides]
  rw [unfolded]
  split
  · next fits => exact ⟨fits, belowNext⟩
  · next larger =>
      refine ⟨abovePrevious, ?_⟩
      rw [Int.sub_add_cancel]
      exact not_le.mp larger

end Magnitude

/-- A number with a mantissa of 53 bits, or the power of two after them. -/
def IsOnGrid (number : Rat) : Prop :=
  ∃ (mantissa : Nat) (exponent : Int),
    mantissa ≤ 2 ^ 53 ∧ minExponent ≤ exponent ∧ number = scaled mantissa exponent

theorem isOnGrid_natCast {number : Nat} (small : number ≤ 2 ^ 53) : IsOnGrid number :=
  ⟨number, 0, small, by decide, by simp [scaled]⟩

/-- A number from one on has a mantissa of exactly 53 bits. -/
theorem IsOnGrid.exists_full {number : Rat} (onGrid : IsOnGrid number) (large : 1 ≤ number) :
    ∃ (mantissa : Nat) (exponent : Int), 2 ^ 52 ≤ mantissa ∧ mantissa < 2 ^ 53 ∧
      minExponent ≤ exponent ∧ number = scaled mantissa exponent := by
  rcases onGrid with ⟨mantissa, exponent, small, fits, rfl⟩
  rcases Nat.lt_or_eq_of_le small with less | rfl
  · have positive : mantissa ≠ 0 := by
      rintro rfl
      norm_num [scaled] at large
    have bits : mantissa.log2 ≤ 52 := by
      have := (Nat.log2_lt positive).mpr less
      omega
    obtain ⟨places, room⟩ := Nat.exists_eq_add_of_le bits
    have shifted : scaled mantissa exponent =
        scaled (mantissa * 2 ^ places) (exponent - places) := by
      rw [← scaled_add, Int.sub_add_cancel]
    have least : 2 ^ 52 ≤ mantissa * 2 ^ places := by
      rw [room, pow_add]
      exact Nat.mul_le_mul_right _ (Nat.log2_self_le positive)
    have greatest : mantissa * 2 ^ places < 2 ^ 53 := by
      have split : 2 ^ 53 = 2 ^ (mantissa.log2 + 1) * 2 ^ places := by
        rw [← pow_add]
        congr 1
        omega
      rw [split]
      exact Nat.mul_lt_mul_of_pos_right Nat.lt_log2_self (Nat.two_pow_pos places)
    refine ⟨_, _, least, greatest, ?_, shifted⟩
    -- A lower exponent would leave the number below one.
    by_contra! low
    have small : scaled (mantissa * 2 ^ places) (exponent - places) ≤
        2 ^ (exponent - places + 53) := scaled_le_zpow greatest.le
    have tiny : (2 : Rat) ^ (exponent - places + 53) < 1 :=
      zpow_lt_one_of_neg₀ (by norm_num) (by unfold minExponent at low; omega)
    rw [shifted] at large
    linarith
  · refine ⟨2 ^ 52, exponent + 1, le_refl _, by norm_num, by omega, ?_⟩
    exact (scaled_add (2 ^ 52) exponent 1).symm

/-- On the grid a number from one on is followed by one that is hardly larger. -/
theorem IsOnGrid.exists_next {number : Rat} (onGrid : IsOnGrid number) (large : 1 ≤ number) :
    ∃ next, IsOnGrid next ∧ number < next ∧ next ≤ number * (1 + 1 / 2 ^ 52) := by
  rcases onGrid.exists_full large with ⟨mantissa, exponent, least, greatest, fits, rfl⟩
  refine ⟨scaled (mantissa + 1) exponent, ⟨_, _, greatest, fits, rfl⟩, ?_, ?_⟩
  · rw [← not_le, scaled_le_scaled_iff]
    omega
  · have enough : (2 : Rat) ^ 52 ≤ mantissa := by exact_mod_cast least
    have step : ((mantissa + 1 : Nat) : Rat) ≤ mantissa * (1 + 1 / 2 ^ 52) := by
      push_cast
      linarith
    calc scaled (mantissa + 1) exponent
        ≤ mantissa * (1 + 1 / 2 ^ 52) * 2 ^ exponent :=
          mul_le_mul_of_nonneg_right step (two_zpow_pos exponent).le
      _ = scaled mantissa exponent * (1 + 1 / 2 ^ 52) := by
        rw [scaled]
        ring

/-- On the grid nothing lies between one and its successor. -/
theorem IsOnGrid.le_of_one_lt {number : Rat} (onGrid : IsOnGrid number) (large : 1 < number) :
    1 + 1 / 2 ^ 52 ≤ number := by
  rcases onGrid with ⟨mantissa, exponent, small, _, rfl⟩
  have high : -52 ≤ exponent := by
    by_contra! low
    have upper : scaled mantissa exponent ≤ 2 ^ (exponent + 53) := scaled_le_zpow small
    have noMore : (2 : Rat) ^ (exponent + 53) ≤ 1 :=
      zpow_le_one_of_nonpos₀ (by norm_num) (by omega)
    linarith
  obtain ⟨places, rfl⟩ := Int.le.dest high
  have one : (1 : Rat) = scaled (2 ^ 52) (-52) := by norm_num [scaled]
  have successor : (1 : Rat) + 1 / 2 ^ 52 = scaled (2 ^ 52 + 1) (-52) := by norm_num [scaled]
  rw [scaled_add, one, ← not_le, scaled_le_scaled_iff] at large
  rw [scaled_add, successor, scaled_le_scaled_iff]
  omega

/-- What a number is rounded to: a number of the grid, and none lies strictly between the two. -/
structure IsFaithful (exact rounded : Rat) : Prop where
  onGrid : IsOnGrid rounded
  below : ∀ number, IsOnGrid number → number ≤ exact → number ≤ rounded
  above : ∀ number, IsOnGrid number → exact ≤ number → rounded ≤ number

theorem IsFaithful.eq_of_isOnGrid {exact rounded : Rat} (faithful : IsFaithful exact rounded)
    (onGrid : IsOnGrid exact) : rounded = exact :=
  le_antisymm (faithful.above exact onGrid le_rfl) (faithful.below exact onGrid le_rfl)

/-- Numbers from here on are rounded to infinity. -/
def overflowLimit : Rat :=
  scaled (2 ^ 54 - 1) 970

/-- The numbers of 64 bits: those with a mantissa of 53 bits and an exponent within range. -/
def IsDouble : Binary64 → Prop
  | finite _ mantissa exponent =>
    mantissa < 2 ^ 53 ∧ minExponent ≤ exponent ∧ exponent ≤ maxExponent
  | _ => True

theorem IsDouble.isOnGrid {negative : Bool} {mantissa : Nat} {exponent : Int}
    (double : (finite negative mantissa exponent).IsDouble) : IsOnGrid (scaled mantissa exponent) :=
  ⟨mantissa, exponent, double.1.le, double.2.1, rfl⟩

section Quotients

variable {numerator denominator : Nat} {exponent : Int}

theorem cross_le_iff (divides : 0 < denominator) {left right : Nat} :
    left * (denominator * (powerOfTwo exponent).1) ≤
        right * (numerator * (powerOfTwo exponent).2) ↔
      (left : Rat) * 2 ^ exponent ≤ right * ((numerator : Rat) / denominator) := by
  have down : (0 : Rat) < (powerOfTwo exponent).2 := by exact_mod_cast (powerOfTwo_pos exponent).2
  have divides' : (0 : Rat) < denominator := by exact_mod_cast divides
  rw [← powerOfTwo_eq, ← mul_div_assoc, ← mul_div_assoc, div_le_div_iff₀ down divides',
    mul_assoc, mul_assoc, mul_comm ((powerOfTwo exponent).1 : Rat)]
  exact_mod_cast Iff.rfl

/-- The mantissa of a quotient at its exponent, before it is carried over. -/
def gridMantissa (numerator denominator : Nat) : Nat :=
  let power := powerOfTwo (gridExponent numerator denominator)
  roundQuotient (numerator * power.2) (denominator * power.1)

theorem round_eq (negative : Bool) (positive : 0 < numerator) :
    round negative numerator denominator =
      let exponent := gridExponent numerator denominator
      if gridMantissa numerator denominator = 2 ^ 53 then
        if maxExponent < exponent + 1 then .infinite negative
        else .finite negative (2 ^ 52) (exponent + 1)
      else if maxExponent < exponent then .infinite negative
      else .finite negative (gridMantissa numerator denominator) exponent := by
  rw [round, if_neg positive.ne', gridMantissa]
  dsimp only
  split <;> rfl

variable (divides : 0 < denominator)

include divides

theorem le_gridMantissa {bound : Nat}
    (below : scaled bound (gridExponent numerator denominator) ≤ (numerator : Rat) / denominator) :
    bound ≤ gridMantissa numerator denominator := by
  refine le_roundQuotient (Nat.mul_pos divides (powerOfTwo_pos _).1) ?_
  rw [← Nat.one_mul (numerator * _), cross_le_iff divides]
  simpa [scaled] using below

theorem gridMantissa_le_of_lt_half {bound : Nat}
    (below : 2 * ((numerator : Rat) / denominator) <
      (2 * bound + 1) * 2 ^ gridExponent numerator denominator) :
    gridMantissa numerator denominator ≤ bound := by
  refine roundQuotient_le (Nat.mul_pos divides (powerOfTwo_pos _).1) ?_
  rw [← not_le, cross_le_iff divides]
  push_cast
  exact not_le.mpr below

theorem gridMantissa_le {bound : Nat}
    (above : (numerator : Rat) / denominator ≤ scaled bound (gridExponent numerator denominator)) :
    gridMantissa numerator denominator ≤ bound := by
  apply gridMantissa_le_of_lt_half divides
  have step := two_zpow_pos (gridExponent numerator denominator)
  rw [scaled] at above
  linarith

theorem succ_le_gridMantissa_of_odd {bound : Nat} (odd : bound % 2 = 1)
    (above : (2 * bound + 1) * 2 ^ gridExponent numerator denominator ≤
      2 * ((numerator : Rat) / denominator)) :
    bound + 1 ≤ gridMantissa numerator denominator := by
  refine succ_le_roundQuotient_of_odd (Nat.mul_pos divides (powerOfTwo_pos _).1) odd ?_
  rw [cross_le_iff divides]
  push_cast
  exact above

variable (positive : 0 < numerator)

include positive

theorem lt_of_gridExponent : (numerator : Rat) / denominator <
    2 ^ (gridExponent numerator denominator + 53) := by
  refine (magnitude_spec positive divides).2.trans_le (zpow_le_zpow_right₀ (by norm_num) ?_)
  have := Int.le_max_left (magnitude numerator denominator - 52) minExponent
  unfold gridExponent
  omega

theorem le_of_gridExponent (normal : minExponent < gridExponent numerator denominator) :
    2 ^ (gridExponent numerator denominator + 52) ≤ (numerator : Rat) / denominator := by
  refine le_trans (zpow_le_zpow_right₀ (by norm_num) ?_) (magnitude_spec positive divides).1
  unfold gridExponent at normal ⊢
  omega

theorem gridMantissa_le_two_pow : gridMantissa numerator denominator ≤ 2 ^ 53 := by
  apply gridMantissa_le divides
  rw [scaled_two_pow]
  exact (lt_of_gridExponent divides positive).le

theorem isFaithful_gridMantissa : IsFaithful ((numerator : Rat) / denominator)
    (scaled (gridMantissa numerator denominator) (gridExponent numerator denominator)) := by
  have fits : minExponent ≤ gridExponent numerator denominator := Int.le_max_right _ _
  have most := gridMantissa_le_two_pow divides positive
  -- A number of the grid with a lower exponent is below every quotient with this one.
  have apart : ∀ {mantissa : Nat} {exponent : Int}, mantissa ≤ 2 ^ 53 → minExponent ≤ exponent →
      exponent < gridExponent numerator denominator →
      scaled mantissa exponent ≤ scaled (2 ^ 52) (gridExponent numerator denominator) ∧
        scaled (2 ^ 52) (gridExponent numerator denominator) ≤
          (numerator : Rat) / denominator := by
    intro mantissa exponent small fits finer
    have same := scaled_two_pow (gridExponent numerator denominator) 52
    rw [same]
    refine ⟨(scaled_le_zpow small).trans ?_, le_of_gridExponent divides positive (by omega)⟩
    exact zpow_le_zpow_right₀ (by norm_num) (by omega)
  refine ⟨⟨_, _, most, fits, rfl⟩, ?_, ?_⟩
  · rintro _ ⟨mantissa, exponent, small, fits, rfl⟩ order
    rcases Int.lt_or_le exponent (gridExponent numerator denominator) with finer | coarser
    · rcases apart small fits finer with ⟨lower, least⟩
      exact lower.trans (scaled_le_scaled_iff.mpr (le_gridMantissa divides least))
    · obtain ⟨places, same⟩ := Int.le.dest coarser
      rw [← same, scaled_add] at order ⊢
      exact scaled_le_scaled_iff.mpr (le_gridMantissa divides order)
  · rintro _ ⟨mantissa, exponent, small, fits, rfl⟩ order
    rcases Int.lt_or_le exponent (gridExponent numerator denominator) with finer | coarser
    · rcases apart small fits finer with ⟨lower, least⟩
      have minimal := gridMantissa_le divides (order.trans lower)
      exact (scaled_le_scaled_iff.mpr minimal).trans (least.trans order)
    · obtain ⟨places, same⟩ := Int.le.dest coarser
      rw [← same, scaled_add] at order ⊢
      exact scaled_le_scaled_iff.mpr (gridMantissa_le divides order)

theorem overflowLimit_le_iff : overflowLimit ≤ (numerator : Rat) / denominator ↔
    maxExponent < gridExponent numerator denominator ∨
      gridExponent numerator denominator = maxExponent ∧
        2 ^ 53 ≤ gridMantissa numerator denominator := by
  rw [maxExponent]
  generalize grid : gridExponent numerator denominator = exponent
  have upper := lt_of_gridExponent divides positive
  rw [grid] at upper
  rcases Int.lt_trichotomy exponent 971 with low | rfl | high
  · have within : (2 : Rat) ^ (exponent + 53) ≤ overflowLimit :=
      calc (2 : Rat) ^ (exponent + 53)
          ≤ 2 ^ (970 + 53 : Int) := zpow_le_zpow_right₀ (by norm_num) (by omega)
        _ = scaled (2 ^ 53) 970 := (scaled_two_pow 970 53).symm
        _ ≤ overflowLimit := scaled_le_scaled_iff.mpr (by norm_num)
    refine iff_of_false (not_le.mpr (by linarith)) ?_
    omega
  · -- The limit is the middle between the last mantissa and the one after it.
    have twice : 2 * overflowLimit = (2 * (2 ^ 53 - 1 : Nat) + 1) * 2 ^ (971 : Int) := by
      rw [show (971 : Int) = 970 + 1 from rfl, zpow_add_one₀ (by norm_num), overflowLimit, scaled]
      generalize (2 : Rat) ^ (970 : Int) = step
      norm_num
      ring
    rw [← grid] at twice
    constructor
    · intro beyond
      refine Or.inr ⟨rfl, succ_le_gridMantissa_of_odd divides (by norm_num) ?_⟩
      rw [← twice]
      linarith
    · rintro (impossible | ⟨_, most⟩)
      · omega
      · by_contra! below
        have : gridMantissa numerator denominator ≤ 2 ^ 53 - 1 := by
          apply gridMantissa_le_of_lt_half divides
          rw [← twice]
          linarith
        omega
  · have beyond : overflowLimit ≤ 2 ^ (exponent + 52) :=
      calc overflowLimit
          ≤ scaled (2 ^ 54) 970 := scaled_le_scaled_iff.mpr (by norm_num)
        _ = 2 ^ (970 + 54 : Int) := scaled_two_pow 970 54
        _ ≤ 2 ^ (exponent + 52) := zpow_le_zpow_right₀ (by norm_num) (by omega)
    have least := le_of_gridExponent divides positive (by rw [grid, minExponent]; omega)
    rw [grid] at least
    exact iff_of_true (beyond.trans least) (Or.inl high)

/-- How a number that is not negative is rounded: below the limit to a finite number, faithfully,
and from there on to infinity. -/
inductive RoundsTo (exact : Rat) (negative : Bool) : Binary64 → Prop where
  | infinite (beyond : overflowLimit ≤ exact) : RoundsTo exact negative (.infinite negative)
  | finite {mantissa : Nat} {exponent : Int} (within : exact < overflowLimit)
      (double : (finite negative mantissa exponent).IsDouble)
      (faithful : IsFaithful exact (scaled mantissa exponent)) :
      RoundsTo exact negative (.finite negative mantissa exponent)

omit positive in
theorem roundsTo_round (negative : Bool) (numerator : Nat) :
    RoundsTo ((numerator : Rat) / denominator) negative (round negative numerator denominator) := by
  have fits : minExponent ≤ gridExponent numerator denominator := Int.le_max_right _ _
  rcases Nat.eq_zero_or_pos numerator with rfl | positive
  · have zero : scaled 0 minExponent = ((0 : Nat) : Rat) / denominator := by simp [scaled]
    have within : ((0 : Nat) : Rat) / denominator < overflowLimit := by
      rw [Nat.cast_zero, zero_div]
      exact mul_pos (by norm_num) (two_zpow_pos 970)
    refine .finite within ⟨by norm_num, le_rfl, by decide⟩ ?_
    rw [zero]
    exact ⟨⟨0, minExponent, by norm_num, le_rfl, zero.symm⟩, fun _ _ order => order,
      fun _ _ order => order⟩
  · have limit := overflowLimit_le_iff divides positive
    have faithful := isFaithful_gridMantissa divides positive
    have most := gridMantissa_le_two_pow divides positive
    rw [round_eq negative positive]
    generalize gridMantissa numerator denominator = mantissa at *
    generalize gridExponent numerator denominator = exponent at *
    dsimp only
    split_ifs with carried beyond beyond
    · exact .infinite (limit.mpr (by omega))
    · have carry : scaled (2 ^ 52) (exponent + 1) = scaled mantissa exponent := by
        rw [carried]
        exact scaled_add (2 ^ 52) exponent 1
      rw [← carry] at faithful
      refine .finite ?_ ⟨by norm_num, by omega, by omega⟩ faithful
      rw [← not_le, limit]
      omega
    · exact .infinite (limit.mpr (Or.inl beyond))
    · refine .finite ?_ ⟨by omega, fits, by omega⟩ faithful
      rw [← not_le, limit]
      omega

end Quotients

theorem RoundsTo.isDouble {exact : Rat} {negative : Bool} {rounded : Binary64}
    (rounds : RoundsTo exact negative rounded) : rounded.IsDouble := by
  cases rounds with
  | infinite _ => trivial
  | finite _ double _ => exact double

theorem roundsTo_ofInt (number : Nat) : RoundsTo number false (ofInt number) := by
  have rounds := roundsTo_round Nat.one_pos false number
  have sign : ¬(number : Int) < 0 := by omega
  simpa [ofInt, sign] using rounds

theorem isDouble_ofInt (number : Int) : (ofInt number).IsDouble :=
  (roundsTo_round Nat.one_pos _ _).isDouble

theorem isDouble_ofRat (number : Rat) : (ofRat number).IsDouble :=
  (roundsTo_round number.den_pos _ _).isDouble

/-- A product is rounded once. -/
theorem roundsTo_mul (negative other : Bool) (mantissa factor : Nat) (exponent power : Int) :
    RoundsTo (scaled mantissa exponent * scaled factor power) (negative != other)
      ((finite negative mantissa exponent).mul (finite other factor power)) := by
  have product : scaled mantissa exponent * scaled factor power =
      scaled (mantissa * factor) (exponent + power) := by
    rw [scaled, scaled, scaled, zpow_add₀ (by norm_num)]
    push_cast
    ring
  rw [product, scaled_eq_div]
  exact roundsTo_round (powerOfTwo_pos _).2 _ _

end ContractClient.Binary64
