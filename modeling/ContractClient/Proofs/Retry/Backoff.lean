import ContractClient.Proofs.Retry.Attempts

/-!
# Capped exponentials

The first wait grows by a factor from one on, and what it has grown to is capped afterwards. So
there is a wait, and it is capped, exactly as long as what it has grown to can be computed
(`RetryConfig.isCapped_iff`): with whole numbers always, and otherwise until the power of the factor
is out of the range of floating point numbers.
-/

namespace ContractClient.RetryConfig

open Numeral Binary64

variable {config : RetryConfig} {attempt later : Nat} {base factor amount more : WithTop Rat}
  {longest : Rat} {limit : Binary64}

/-- There is a wait after an attempt that is not above a limit, and that is the limit as soon as
what the first wait has grown to is above the longest wait. -/
def IsCapped (config : RetryConfig) (limit : Binary64) (attempt : Nat) : Prop :=
  ∃ delay, config.calculateDelay attempt = .ok delay ∧
    (Numeral.float delay).le (.float limit) = true ∧
    ∀ grown, config.growth attempt = .ok grown → config.maxDelay.lt grown = true → delay = limit

/-- What the first wait grows to can be computed: with whole numbers, or with floating point numbers
that are within range. -/
inductive GrowsInRange (config : RetryConfig) (attempt : Nat) : Prop where
  | whole {first factor : Int} (base : config.baseDelay = .int first)
      (growsBy : config.exponentialBase = .int factor)
  | rounded {first factor : WithTop Rat} (base : config.baseDelay.Amounts first)
      (fits : config.baseDelay.Fits) (growsBy : config.exponentialBase.Amounts factor)
      (within : ∀ exact : Rat, factor = exact → exact ^ attempt < overflowLimit)
      (defined : factor = ⊤ → attempt = 0 ∨ first ≠ 0)

/-- What the first wait has grown to after an attempt amounts to something. -/
def GrowsTo (config : RetryConfig) (attempt : Nat) (amount : WithTop Rat) : Prop :=
  ∃ grown, config.growth attempt = .ok grown ∧ grown.Amounts amount

/-- The first wait and the factor are not both whole numbers. -/
def IsMixed (config : RetryConfig) : Prop :=
  ∀ first factor, config.baseDelay = .int first → config.exponentialBase ≠ .int factor

theorem isMixed_or (config : RetryConfig) :
    config.IsMixed ∨ ∃ first factor, config.baseDelay = .int first ∧
      config.exponentialBase = .int factor := by
  by_cases mixed : config.IsMixed
  · exact Or.inl mixed
  · refine Or.inr ?_
    simp only [IsMixed, not_forall, not_not] at mixed
    rcases mixed with ⟨first, factor, base, growsBy⟩
    exact ⟨first, factor, base, growsBy⟩

/-- Numerals that are not both whole numbers are multiplied as floating point numbers. -/
theorem growth_eq_ok_iff {grown : Numeral} (mixed : config.IsMixed) :
    config.growth attempt = .ok grown ↔
      ∃ power first second, config.exponentialBase.pow attempt = .ok power ∧
        config.baseDelay.toBinary64 = .ok first ∧ power.toBinary64 = .ok second ∧
          grown = .float (first.mul second) := by
  have product : ∀ power, config.exponentialBase.pow attempt = .ok power →
      config.baseDelay.mul power = (do
        return .float ((← config.baseDelay.toBinary64).mul (← power.toBinary64))) := by
    intro power raised
    cases first : config.baseDelay with
    | float number => cases power <;> rfl
    | int whole =>
        cases factor : config.exponentialBase with
        | int factor => exact absurd factor (mixed whole _ first)
        | float number =>
            rw [factor] at raised
            obtain ⟨result, rfl⟩ := exists_float_of_pow raised
            rfl
  rw [growth, Outcome.bind_eq_ok_iff]
  refine exists_congr fun power => ?_
  constructor
  · rintro ⟨raised, multiplied⟩
    rw [product power raised] at multiplied
    rcases Outcome.bind_eq_ok_iff.mp multiplied with ⟨first, read, rest⟩
    rcases Outcome.bind_eq_ok_iff.mp rest with ⟨second, readPower, made⟩
    cases made
    exact ⟨first, second, raised, read, readPower, rfl⟩
  · rintro ⟨first, second, raised, read, readPower, rfl⟩
    rw [product power raised, read, readPower]
    exact ⟨raised, rfl⟩

theorem growth_whole {first factor : Int} (base : config.baseDelay = .int first)
    (growsBy : config.exponentialBase = .int factor) :
    config.growth attempt = .ok (.int (first * factor ^ attempt)) := by
  rw [growth, base, growsBy]
  rfl

section Growth

variable (sound : config.IsSound) (large : (Numeral.int 1).le config.exponentialBase = true)

include sound large

theorem growsInRange_of_growsTo (grows : config.GrowsTo attempt amount) :
    config.GrowsInRange attempt := by
  rcases isMixed_or config with mixed | ⟨first, factor, base, growsBy⟩
  · rcases grows with ⟨grown, grows, grownAmounts⟩
    rcases (growth_eq_ok_iff mixed).mp grows with
      ⟨power, first, second, raised, read, readPower, rfl⟩
    rcases exists_amounts_of_one_le large with ⟨factor, growsBy, least⟩
    have within := within_of_power growsBy least raised readPower
    cases grownAmounts with
    | float product =>
        rcases isNonneg_of_lt sound.base with none | ⟨base, amounts⟩
        · rw [none] at read
          cases read
          exact absurd product not_amounts_notANumber
        · have fits := fits_of_toBinary64 amounts read
          refine .rounded amounts fits growsBy within ?_
          rintro rfl
          by_contra! undefined
          -- After the first attempt an infinite factor leaves nothing of a wait of zero.
          rcases exists_toBinary64 amounts fits with ⟨_, zero, same, firstAmounts, isZero⟩
          cases read.symm.trans same
          have secondAmounts := amounts_power growsBy least raised readPower
          rw [powerAmount_top, if_neg undefined.1] at secondAmounts
          rw [secondAmounts.eq_infinite, mul_infinite firstAmounts,
            if_pos (isZero.mpr undefined.2)] at product
          exact not_amounts_notANumber product
  · exact .whole base growsBy

theorem exists_growsTo (inRange : config.GrowsInRange attempt) :
    ∃ amount, config.GrowsTo attempt amount := by
  rcases isMixed_or config with mixed | ⟨first, factor, base, growsBy⟩
  · cases inRange with
    | whole base growsBy => exact absurd growsBy (mixed _ _ base)
    | @rounded start factor amounts fits growsBy within defined =>
        rcases exists_amounts_of_one_le large with ⟨_, again, least⟩
        cases growsBy.unique again
        rcases exists_toBinary64 amounts fits with ⟨first, _, read, firstAmounts, isZero⟩
        rcases exists_power growsBy least within with
          ⟨power, second, raised, readPower, secondAmounts⟩
        have defined : powerAmount factor attempt = ⊤ → start ≠ 0 := by
          intro infinite
          cases factor with
          | coe exact => exact absurd infinite WithTop.coe_ne_top
          | top =>
              rcases defined rfl with rfl | nonzero
              · exact absurd infinite WithTop.one_ne_top
              · exact nonzero
        rcases exists_amounts_mul firstAmounts secondAmounts (one_le_powerAmount least)
          fun infinite => defined infinite ∘ isZero.mp with ⟨amount, product⟩
        exact ⟨amount, _, (growth_eq_ok_iff mixed).mpr
          ⟨power, first, second, raised, read, readPower, rfl⟩, .float product⟩
  · have grows : config.growth attempt = _ := growth_whole base growsBy
    rcases isNonneg_growth sound (lt_zero_of_one_le large) grows with ⟨⟨⟩⟩ | ⟨amount, amounts⟩
    exact ⟨amount, _, grows, amounts⟩

theorem growsTo_mono (grows : config.GrowsTo attempt amount) (further : config.GrowsTo later more)
    (order : attempt ≤ later) : amount ≤ more := by
  rcases grows with ⟨grown, grows, grownAmounts⟩
  rcases further with ⟨next, further, nextAmounts⟩
  rcases isMixed_or config with mixed | ⟨first, factor, base, growsBy⟩
  · rcases (growth_eq_ok_iff mixed).mp grows with ⟨_, first, _, raised, read, readPower, rfl⟩
    rcases (growth_eq_ok_iff mixed).mp further with ⟨_, _, _, raisedNext, same, readNext, rfl⟩
    cases read.symm.trans same
    rcases exists_amounts_of_one_le large with ⟨factor, growsBy, least⟩
    have powerAmounts := amounts_power growsBy least raised readPower
    have nextPower := amounts_power growsBy least raisedNext readNext
    cases grownAmounts with
    | float product =>
        cases nextAmounts with
        | float nextProduct =>
            rcases isNonneg_of_lt sound.base with none | ⟨base, amounts⟩
            · rw [none] at read
              cases read
              exact absurd product not_amounts_notANumber
            · rcases exists_toBinary64 amounts (fits_of_toBinary64 amounts read) with
                ⟨_, _, same, firstAmounts, _⟩
              cases read.symm.trans same
              exact mul_mono firstAmounts powerAmounts nextPower (one_le_powerAmount least)
                (powerAmount_mono least order) product nextProduct
  · rw [growth_whole base growsBy] at grows further
    cases grows
    cases further
    have positive : 1 ≤ factor := by
      rw [growsBy] at large
      simpa [Numeral.le, Numeral.lt] using large
    have nonneg : 0 ≤ first := by
      have notBelow := sound.base
      rw [base] at notBelow
      simpa [Numeral.lt] using notBelow
    have least : first * factor ^ attempt ≤ first * factor ^ later :=
      mul_le_mul_of_nonneg_left (pow_le_pow_right₀ positive order) nonneg
    rw [← not_lt, ← Numeral.lt_eq_true_iff nextAmounts grownAmounts]
    simpa [Numeral.lt] using least

end Growth

section Caps

variable (sound : config.IsSound) (steady : config.jitter = false)
  (large : (Numeral.int 1).le config.exponentialBase = true)
  (divided : config.maxDelay.divNat 1000 = .ok limit) (finite : limit.toRat? = some longest)

include sound divided finite in
/-- The longest wait and the limit amount to something, the one to a thousandth of the other. -/
theorem exists_amounts_limit :
    ∃ exact : Rat, config.maxDelay.Amounts exact ∧ exact / 1000 < overflowLimit ∧
      limit.Amounts (nearest (exact / 1000) : Rat) := by
  have small : 1000 ≤ 2 ^ 53 := by norm_num
  rcases exists_amounts_of_divNat (by norm_num) small (isNonneg_of_lt sound.most) divided finite
    with ⟨exact, amounts, within, _⟩
  refine ⟨exact, amounts, within, ?_⟩
  rcases divNat_of_amounts (by norm_num) small amounts with ⟨quotient, same, rounds⟩ | ⟨failed, _⟩
  · cases divided.symm.trans same
    rwa [rounded_of_lt within] at rounds
  · cases divided.symm.trans failed

/-- Thousandths of larger amounts are not rounded to smaller numbers. -/
theorem le_of_thousandths {left right : Binary64} {least most : Rat} (nonneg : 0 ≤ least)
    (order : least ≤ most) (amounts : left.Amounts (nearest (least / 1000) : Rat))
    (others : right.Amounts (nearest (most / 1000) : Rat)) :
    (Numeral.float left).le (.float right) = true := by
  have rounds : nearest (least / 1000) ≤ nearest (most / 1000) :=
    nearest_mono (by positivity) (by gcongr)
  exact Numeral.le_of_amounts (.float amounts) (.float others) (WithTop.coe_le_coe.mpr rounds)

include steady in
/-- What has grown is capped. -/
theorem exists_calculateDelay {most : Rat} (grows : config.GrowsTo attempt amount)
    (amounts : config.maxDelay.Amounts (most : Rat)) (within : most / 1000 < overflowLimit) :
    ∃ delay least, config.calculateDelay attempt = .ok delay ∧ 0 ≤ least ∧
      (least : Rat) = amount ⊓ most ∧ delay.Amounts (nearest (least / 1000) : Rat) := by
  rcases grows with ⟨grown, grows, grownAmounts⟩
  have capped := amounts_min grownAmounts amounts
  obtain ⟨least, same⟩ := WithTop.ne_top_iff_exists.mp
    (ne_top_of_le_ne_top WithTop.coe_ne_top (inf_le_right : amount ⊓ (most : WithTop Rat) ≤ most))
  rw [← same] at capped
  have nonneg : 0 ≤ least := WithTop.coe_nonneg.mp capped.nonneg
  have below : least / 1000 ≤ most / 1000 := by
    have : (least : WithTop Rat) ≤ most := same ▸ inf_le_right
    have := WithTop.coe_le_coe.mp this
    gcongr
  rw [calculateDelay_eq steady, grows]
  rcases divNat_of_amounts (by norm_num) (by norm_num : 1000 ≤ 2 ^ 53) capped with
    ⟨delay, waits, rounds⟩ | ⟨_, beyond⟩
  · rw [rounded_of_lt (by exact_mod_cast below.trans_lt within)] at rounds
    exact ⟨delay, least, waits, nonneg, same, rounds⟩
  · exact absurd (below.trans_lt within) (not_lt.mpr beyond)

include sound steady divided finite in
theorem isCapped_of_growsTo (grows : config.GrowsTo attempt amount) :
    config.IsCapped limit attempt := by
  rcases exists_amounts_limit sound divided finite with ⟨most, amounts, within, limitAmounts⟩
  rcases exists_calculateDelay steady grows amounts within with
    ⟨delay, least, waits, nonneg, same, delayAmounts⟩
  refine ⟨delay, waits, ?_, ?_⟩
  · have below : (least : WithTop Rat) ≤ most := same ▸ inf_le_right
    exact le_of_thousandths nonneg (WithTop.coe_le_coe.mp below) delayAmounts limitAmounts
  · intro grown grows above
    rw [calculateDelay_eq steady, grows, Outcome.ok_bind, Numeral.min, if_pos above,
      divided] at waits
    exact (Except.ok.inj waits).symm

include sound steady large in
theorem exists_growsTo_of_isCapped (capped : config.IsCapped limit attempt) :
    ∃ amount, config.GrowsTo attempt amount := by
  rcases capped with ⟨delay, waits, ordered, _⟩
  rw [calculateDelay_eq steady] at waits
  rcases Outcome.bind_eq_ok_iff.mp waits with ⟨grown, grows, divided⟩
  rcases isNonneg_growth sound (lt_zero_of_one_le large) grows with rfl | ⟨amount, amounts⟩
  · -- What is no number is below no limit.
    rw [min_notANumber] at divided
    cases divided
    cases ordered
  · exact ⟨amount, grown, grows, amounts⟩

include large in
theorem GrowsInRange.earlier (inRange : config.GrowsInRange later) (order : attempt ≤ later) :
    config.GrowsInRange attempt := by
  cases inRange with
  | whole base growsBy => exact .whole base growsBy
  | @rounded first factor base fits growsBy within defined =>
      rcases exists_amounts_of_one_le large with ⟨_, again, least⟩
      cases growsBy.unique again
      refine .rounded base fits growsBy ?_ ?_
      · rintro exact rfl
        have one : (1 : Rat) ≤ exact := by exact_mod_cast least
        exact (pow_le_pow_right₀ one order).trans_lt (within exact rfl)
      · intro infinite
        refine (defined infinite).imp_left ?_
        rintro rfl
        exact Nat.le_zero.mp order

include sound steady large divided finite in
/-- The waits do not get shorter. -/
theorem calculateDelay_mono (inRange : config.GrowsInRange later) (order : attempt ≤ later) :
    ∃ delay next, config.calculateDelay attempt = .ok delay ∧
      config.calculateDelay later = .ok next ∧ (Numeral.float delay).le (.float next) = true := by
  rcases exists_growsTo sound large (inRange.earlier large order) with ⟨amount, grows⟩
  rcases exists_growsTo sound large inRange with ⟨more, further⟩
  rcases exists_amounts_limit sound divided finite with ⟨most, amounts, within, _⟩
  rcases exists_calculateDelay steady grows amounts within with
    ⟨delay, least, waits, nonneg, same, delayAmounts⟩
  rcases exists_calculateDelay steady further amounts within with
    ⟨next, other, waitsNext, _, sameNext, nextAmounts⟩
  have below : (least : WithTop Rat) ≤ other := by
    rw [same, sameNext]
    exact inf_le_inf_right _ (growsTo_mono sound large grows further order)
  exact ⟨delay, next, waits, waitsNext,
    le_of_thousandths nonneg (WithTop.coe_le_coe.mp below) delayAmounts nextAmounts⟩

end Caps

/-- Without jitter, with a factor from one on and a limit that is a finite number of seconds, the
wait after an attempt is capped exactly if what the first wait has grown to can be computed. Up to
there the waits do not get shorter, and an action that is retried ends as one of its runs does. -/
theorem isCapped_iff {fields : Dict} {retryable : List FailureClass}
    (accepted : ofFields fields retryable = .ok config) (steady : config.jitter = false)
    (large : (Numeral.int 1).le config.exponentialBase = true)
    (divided : config.maxDelay.divNat 1000 = .ok limit) (finite : limit.toRat? = some longest) :
    (∀ attempt, config.IsCapped limit attempt ↔ config.GrowsInRange attempt) ∧
      (∀ attempt later, attempt ≤ later → config.GrowsInRange later →
        ∃ delay next, config.calculateDelay attempt = .ok delay ∧
          config.calculateDelay later = .ok next ∧
          (Numeral.float delay).le (.float next) = true) ∧
      ((∀ attempt, attempt + 1 < config.maxAttempts.toNat → config.GrowsInRange attempt) →
        ∀ (α : Type) (action : Activity α) (operation : String) (start stop : Rat)
          (labels : List Label) (ending : Ending α), Undisturbed labels →
          Activity.Run (retry config action operation) start labels ending stop →
          ∃ moment own, Activity.Run action moment own ending stop) := by
  have sound := isSound_of_ofFields accepted
  have isCapped : ∀ attempt, config.IsCapped limit attempt ↔ config.GrowsInRange attempt := by
    intro attempt
    constructor
    · intro capped
      rcases exists_growsTo_of_isCapped sound steady large capped with ⟨amount, grows⟩
      exact growsInRange_of_growsTo sound large grows
    · intro inRange
      rcases exists_growsTo sound large inRange with ⟨amount, grows⟩
      exact isCapped_of_growsTo sound steady divided finite grows
  refine ⟨isCapped, ?_, ?_⟩
  · intro attempt later order inRange
    exact calculateDelay_mono sound steady large divided finite inRange order
  · intro inRange α action operation start stop labels ending undisturbed run
    have attempts := sound.attempts
    have waits : ∀ later, 0 ≤ later → later + 1 < 0 + config.maxAttempts.toNat →
        ∃ delay, config.calculateDelay later = .ok delay := by
      intro later _ less
      rcases (isCapped later).mpr (inRange later (by omega)) with ⟨delay, waits, _⟩
      exact ⟨delay, waits⟩
    rcases attempts_of_run waits undisturbed (by omega) run with ⟨failures, _, attempts⟩
    exact attempts.exists_run

section Examples

theorem threeAttempts_divNat : threeAttempts.maxDelay.divNat 1000 = .ok (ofInt 30) :=
  Outcome.toOption_eq_some_iff.mp (by decide +kernel)

/-- A second that doubles is capped at half a minute, as long as the power of two is a floating
point number. -/
theorem isCapped_iff_doubled :
    ofFields [("jitter", .bool false)] [.fault .rpcTransport] = .ok threeAttempts ∧
      threeAttempts.IsCapped (ofInt 30) 1023 ∧ ¬threeAttempts.IsCapped (ofInt 30) 1024 := by
  have finite : (ofInt 30).toRat? = some 30 := by decide +kernel
  have large : (Numeral.int 1).le threeAttempts.exponentialBase = true := by decide +kernel
  have isCapped := (isCapped_iff threeAttempts_accepted rfl large threeAttempts_divNat finite).1
  have two : threeAttempts.exponentialBase.Amounts ((2 : Nat) : Rat) := by
    rw [← rounded_natCast (by norm_num)]
    exact .float (amounts_ofInt 2)
  refine ⟨threeAttempts_accepted, (isCapped 1023).mpr ?_, fun capped => ?_⟩
  · refine .rounded (.int 1000) ?_ two ?_ nofun
    · rintro whole ⟨⟩
      have below : ((1000 : Int) : Rat) < 2 ^ 10 := by norm_num
      exact below.trans (two_pow_lt_overflowLimit (by norm_num))
    · rintro exact same
      cases WithTop.coe_injective same
      exact_mod_cast two_pow_lt_overflowLimit (by norm_num : 1023 < 1024)
  · cases (isCapped 1024).mp capped with
    | whole base growsBy => cases growsBy
    | rounded base fits growsBy within defined =>
        have below := within _ (growsBy.unique two)
        exact absurd below (not_lt.mpr (overflowLimit_le_two_pow_iff.mpr le_rfl))

/-- A power of the factor that is out of range leaves no wait to cap. -/
theorem not_every_wait_capped :
    ¬∀ (fields : Dict) (retryable : List FailureClass) (config : RetryConfig) (limit : Binary64)
      (longest : Rat), ofFields fields retryable = .ok config → config.jitter = false →
      (Numeral.int 1).le config.exponentialBase = true →
      config.maxDelay.divNat 1000 = .ok limit → limit.toRat? = some longest →
      ∀ attempt, config.IsCapped limit attempt := by
  intro every
  have finite : (ofInt 30).toRat? = some 30 := by decide +kernel
  have large : (Numeral.int 1).le threeAttempts.exponentialBase = true := by decide +kernel
  rcases every _ _ _ _ 30 threeAttempts_accepted rfl large threeAttempts_divNat finite 1024 with
    ⟨delay, waits, _⟩
  have none : (threeAttempts.calculateDelay 1024).toOption = none := by decide +kernel
  rw [waits] at none
  cases none

end Examples

end ContractClient.RetryConfig
