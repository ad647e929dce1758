import ContractClient.Proofs.Number.Power
import ContractClient.Retry

/-!
# Waits

How long to wait after an attempt is found by an exponential that is capped. As long as the result
is a finite number of seconds, it is not below zero and not above the longest wait
(`RetryConfig.keepsLimit`).
-/

namespace ContractClient

/-- What is no number stays below nothing. -/
theorem Numeral.min_notANumber (numeral : Numeral) :
    Numeral.min (.float .notANumber) numeral = .float .notANumber := by
  cases numeral with
  | int value => rfl
  | float number => cases number <;> rfl

namespace RetryConfig

open Numeral Binary64

variable {config : RetryConfig} {fields : Dict} {retryable : List FailureClass} {attempt : Nat}

/-- There is at least one attempt, and no delay is below zero. -/
structure IsSound (config : RetryConfig) : Prop where
  attempts : 1 ≤ config.maxAttempts
  base : config.baseDelay.lt (.int 0) = false
  most : config.maxDelay.lt (.int 0) = false

theorem isSound_of_ofFields (accepted : ofFields fields retryable = .ok config) :
    config.IsSound := by
  unfold ofFields at accepted
  dsimp only at accepted
  split at accepted
  case h_3 => cases accepted
  -- However the number of attempts is given, it is checked in the same way.
  all_goals
    simp only [pure_bind, Outcome.error_bind, Outcome.refuse_eq_ok_iff,
      Outcome.bind_eq_ok_iff] at accepted
    rcases accepted with ⟨enough, _, _, _, _, delays, _, _, made⟩
    cases made
    rw [Bool.or_eq_true, not_or, Bool.not_eq_true, Bool.not_eq_true] at delays
    exact ⟨not_lt.mp enough, delays.1, delays.2⟩

/-- The wait after an attempt is a finite number of seconds. -/
def StaysInRange (config : RetryConfig) (attempt : Nat) : Prop :=
  ∃ delay seconds, config.calculateDelay attempt = .ok delay ∧ delay.toRat? = some seconds

theorem StaysInRange.exists_delay (inRange : config.StaysInRange attempt) :
    ∃ delay, config.calculateDelay attempt = .ok delay := by
  rcases inRange with ⟨delay, _, waits, _⟩
  exact ⟨delay, waits⟩

/-- The wait after an attempt is not below zero, and not above the longest wait in seconds. -/
def KeepsLimit (config : RetryConfig) (attempt : Nat) : Prop :=
  ∃ delay seconds, config.calculateDelay attempt = .ok delay ∧ delay.toRat? = some seconds ∧
    0 ≤ seconds ∧ ∀ limit most, config.maxDelay.divNat 1000 = .ok limit →
      limit.toRat? = some most → seconds ≤ most

/-- What the first wait has grown to after an attempt, before it is capped. -/
def growth (config : RetryConfig) (attempt : Nat) : Outcome Numeral := do
  config.baseDelay.mul (← config.exponentialBase.pow attempt)

/-- Without jitter the wait is the lower one of what has grown and the longest wait. -/
theorem calculateDelay_eq (steady : config.jitter = false) :
    config.calculateDelay attempt = (do
      let grown ← config.growth attempt
      (grown.min config.maxDelay).divNat 1000) := by
  simp only [calculateDelay, backoff, growth, steady, bind_assoc, pure_bind, Bool.false_eq_true,
    if_false]

/-- What has grown is not below zero. -/
theorem isNonneg_growth {grown : Numeral} (sound : config.IsSound)
    (nonneg : config.exponentialBase.lt (.int 0) = false)
    (grows : config.growth attempt = .ok grown) : grown.IsNonneg := by
  rcases Outcome.bind_eq_ok_iff.mp grows with ⟨power, raised, multiplied⟩
  exact isNonneg_mul (isNonneg_of_lt sound.base) (isNonneg_pow (isNonneg_of_lt nonneg) raised)
    multiplied

theorem keepsLimit (sound : config.IsSound) (steady : config.jitter = false)
    (nonneg : config.exponentialBase.lt (.int 0) = false) (inRange : config.StaysInRange attempt) :
    config.KeepsLimit attempt := by
  rcases inRange with ⟨delay, seconds, waits, finite⟩
  refine ⟨delay, seconds, waits, finite, ?_⟩
  rw [calculateDelay_eq steady] at waits
  rcases Outcome.bind_eq_ok_iff.mp waits with ⟨grown, grows, divided⟩
  have grownNonneg := isNonneg_growth sound nonneg grows
  have mostNonneg := isNonneg_of_lt sound.most
  have small : 1000 ≤ 2 ^ 53 := by norm_num
  rcases exists_amounts_of_divNat (by norm_num) small (isNonneg_min grownNonneg mostNonneg) divided
    finite with ⟨exact, amounts, _, rfl⟩
  refine ⟨nearest_nonneg, ?_⟩
  intro limit most dividedMost finiteMost
  rcases exists_amounts_of_divNat (by norm_num) small mostNonneg dividedMost finiteMost with
    ⟨other, others, _, rfl⟩
  have below : exact ≤ other := by
    rcases grownNonneg with rfl | ⟨amount, grownAmounts⟩
    · rw [min_notANumber] at amounts
      cases amounts with
      | float amounts => cases amounts
    · have least := amounts.unique (amounts_min grownAmounts others)
      have : (exact : WithTop Rat) ≤ other := least ▸ inf_le_right
      exact WithTop.coe_le_coe.mp this
  have exactNonneg := WithTop.coe_nonneg.mp amounts.nonneg
  refine nearest_mono ?_ ?_
  · positivity
  · gcongr

end RetryConfig

end ContractClient
