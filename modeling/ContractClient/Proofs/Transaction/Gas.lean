import ContractClient.Proofs.Number.Rounding
import ContractClient.Proofs.Schema
import ContractClient.Proofs.Text.Integer
import ContractClient.Proofs.Transaction.Build

/-!
# Gas

The gas of a request that names none is what the node estimates, times the margin of the
configuration, but never more than its limit. The product is one of binary floating point numbers:
the estimate is rounded first, and the product again. A margin above one makes up for both. A margin
of one does not, so that gas may be lost (`Pipeline.LosesGas`), and out of range there is no product
at all (`Pipeline.HasProduct`). Apart from that the limit and the estimate are kept
(`Pipeline.build_pads_estimate`).
-/

namespace ContractClient

open Activity Binary64 Outcome TransactionRequest

namespace Binary64

theorem isDouble_ofDecimal (negative : Bool) (digits : Nat) (place : Int) :
    (ofDecimal negative digits place).IsDouble := by
  have zero : (finite negative 0 minExponent).IsDouble := ⟨by norm_num, le_rfl, by decide⟩
  unfold ofDecimal
  dsimp only
  split_ifs
  · exact zero
  · trivial
  · exact zero
  · exact (roundsTo_round (by positivity) _ _).isDouble

end Binary64

theorem Decimal.isDouble_of_toBinary64? {characters : List Char} {number : Binary64}
    (read : toBinary64? characters = some number) : number.IsDouble := by
  unfold toBinary64? at read
  split at read
  · cases read
    exact Binary64.isDouble_ofDecimal _ _ _
  · dsimp only at read
    split_ifs at read <;> cases read <;> trivial

namespace Schema

variable {value : Value} {number : Binary64}

theorem isDouble_of_floatOfText {characters : List Char}
    (read : floatOfText characters = .valid number) : number.IsDouble := by
  unfold floatOfText at read
  split at read
  · next found =>
      cases read
      rcases Option.bind_eq_some_iff.mp found with ⟨digits, _, read⟩
      exact Decimal.isDouble_of_toBinary64? read
  · cases read

/-- A number that is read has 64 bits, unless it was given as one that has not. -/
theorem isDouble_of_float (given : ∀ margin, value = .float margin → margin.IsDouble)
    (read : float value = .valid number) : number.IsDouble := by
  cases value with
  | float margin =>
      cases read
      exact given number rfl
  | int whole =>
      simp only [float] at read
      split at read <;> cases read
      exact Binary64.isDouble_ofInt whole
  | bool flag =>
      cases read
      exact Binary64.isDouble_ofInt _
  | text characters => exact isDouble_of_floatOfText read
  | bytes octets =>
      simp only [float] at read
      split at read
      · exact isDouble_of_floatOfText read
      · cases read
  | _ => cases read

end Schema

namespace PipelineConfig

variable {config : PipelineConfig} {entries : Dict}

/-- A margin that is accepted: one that is not below one. -/
inductive IsMargin : Binary64 → Prop where
  | notANumber : IsMargin .notANumber
  | infinite : IsMargin (.infinite false)
  | finite {mantissa : Nat} {exponent : Int}
      (onGrid : Binary64.IsOnGrid (Binary64.scaled mantissa exponent))
      (large : 1 ≤ Binary64.scaled mantissa exponent) :
      IsMargin (.finite false mantissa exponent)

theorem isMargin_of_not_lt {margin : Binary64} (double : margin.IsDouble)
    (large : margin.lt (Binary64.ofInt 1) = false) : IsMargin margin := by
  have one : Binary64.ofInt 1 = .finite false (2 ^ 52) (-52) := by decide +kernel
  have unit : Binary64.scaled (2 ^ 52) (-52) = 1 := by norm_num [Binary64.scaled]
  rw [one] at large
  cases margin with
  | notANumber => exact .notANumber
  | infinite negative =>
      cases negative
      · exact .infinite
      · cases large
  | finite negative mantissa exponent =>
      have nonneg := Binary64.scaled_nonneg mantissa exponent
      simp only [Binary64.lt, Binary64.toRat?_finite, Option.getD_some, decide_eq_false_iff_not,
        unit, Bool.false_eq_true, if_false] at large
      cases negative
      · exact .finite double.isOnGrid (by simpa using large)
      · simp at large
        linarith

/-- A margin that a configuration was read with. -/
theorem isMargin_of_read
    (doubles : ∀ margin, Dict.get? entries "gas_margin" = some (.float margin) → margin.IsDouble)
    (accepted : read entries = .valid config) : IsMargin config.gasMargin := by
  rcases Checked.apply_eq_valid accepted with ⟨_, _, first, _, rfl⟩
  rcases Checked.apply_eq_valid first with ⟨_, _, second, _, rfl⟩
  rcases Checked.apply_eq_valid second with ⟨_, _, third, _, rfl⟩
  rcases Checked.map_eq_valid third with ⟨margin, given, rfl⟩
  change IsMargin margin
  unfold Schema.field at given
  split at given
  · next value found =>
      rcases Checked.require_eq_valid (Checked.under_eq_valid given) with ⟨read, large⟩
      refine isMargin_of_not_lt (Schema.isDouble_of_float ?_ read) (by simpa using large)
      rintro margin rfl
      exact doubles margin found
  · cases given
    exact isMargin_of_not_lt (Binary64.isDouble_ofRat _) (by decide +kernel)

end PipelineConfig

/-- A margin that adds something makes up for what is lost when the estimate and the product are
rounded. -/
theorem Binary64.IsFaithful.padded {estimate : Nat} {rounded factor padded : Rat}
    (first : IsFaithful estimate rounded) (onGrid : IsOnGrid factor) (large : 1 ≤ factor)
    (second : IsFaithful (rounded * factor) padded) :
    factor = 1 ∧ padded = rounded ∨ factor ≠ 1 ∧ (estimate : Rat) ≤ padded := by
  have nonneg : 0 ≤ rounded := first.below 0 (isOnGrid_natCast (Nat.zero_le _)) (Nat.cast_nonneg _)
  rcases large.eq_or_lt with rfl | adds
  · rw [mul_one] at second
    exact Or.inl ⟨rfl, second.eq_of_isOnGrid first.onGrid⟩
  · refine Or.inr ⟨adds.ne', ?_⟩
    rcases le_or_gt (estimate : Rat) rounded with up | down
    · have more : rounded ≤ rounded * factor := le_mul_of_one_le_right nonneg large
      exact up.trans (second.below rounded first.onGrid more)
    · -- The estimate is at most the number of the grid that follows the one it is rounded to.
      have positive : 1 ≤ estimate := by
        have : (0 : Rat) < estimate := nonneg.trans_lt down
        exact_mod_cast this
      have one : (1 : Rat) ≤ rounded := by
        apply first.below 1
        · have small : 1 ≤ 2 ^ 53 := by norm_num
          exact_mod_cast isOnGrid_natCast small
        · exact_mod_cast positive
      rcases first.onGrid.exists_next one with ⟨next, nextOnGrid, follows, near⟩
      have reached : (estimate : Rat) ≤ next := by
        by_contra! beyond
        exact absurd (first.below next nextOnGrid beyond.le) (not_le.mpr follows)
      have within : next ≤ rounded * factor :=
        near.trans (mul_le_mul_of_nonneg_left (onGrid.le_of_one_lt adds) nonneg)
      exact reached.trans (second.below next nextOnGrid within)

theorem TransactionRequest.Gap.method_injective {gap other : Gap}
    (same : gap.method = other.method) : gap = other := by
  cases gap <;> cases other <;> first | rfl | exact absurd same (by decide)

namespace Pipeline

section Limits

variable (config : PipelineConfig) (estimate : Nat)

/-- The product of an estimate and the margin is a number within range. -/
def HasProduct : Prop :=
  ∃ rounded factor, (Binary64.ofInt estimate).toRat? = some rounded ∧
    config.gasMargin.toRat? = some factor ∧ rounded * factor < Binary64.overflowLimit

/-- The margin adds nothing to an estimate that is rounded down, and the limit does not matter. -/
def LosesGas : Prop :=
  config.gasMargin.toRat? = some 1 ∧ ∃ rounded, (Binary64.ofInt estimate).toRat? = some rounded ∧
    rounded < estimate ∧ rounded < config.maxGas

/-- Gas that is within the limit, and not less than the estimate unless that is beyond the limit or
lost. -/
structure Pads (gas : Nat) : Prop where
  limit : gas ≤ config.maxGas
  estimate : min estimate config.maxGas ≤ gas ↔ ¬LosesGas config estimate

/-- There is no gas for an estimate: it is out of range, or the margin is not a finite number. -/
inductive Refuses : Outcome Int → Prop where
  | overflow : Refuses (Outcome.condition .overflow)
  | badValue (noFactor : config.gasMargin.toRat? = none) : Refuses (Outcome.condition .badValue)

end Limits

variable {config : PipelineConfig} {estimate : Nat}

section Products

variable {rounded factor padded : Rat}

theorem hasProduct_iff (isRounded : (ofInt estimate).toRat? = some rounded)
    (isFactor : config.gasMargin.toRat? = some factor) :
    HasProduct config estimate ↔ rounded * factor < overflowLimit := by
  simp [HasProduct, isRounded, isFactor]

theorem not_hasProduct_of_estimate (outOfRange : (ofInt estimate).toRat? = none) :
    ¬HasProduct config estimate := by
  simp [HasProduct, outOfRange]

theorem not_hasProduct_of_margin (noFactor : config.gasMargin.toRat? = none) :
    ¬HasProduct config estimate := by
  simp [HasProduct, noFactor]

theorem pads_of_padded {whole : Nat} (isRounded : (ofInt estimate).toRat? = some rounded)
    (isFactor : config.gasMargin.toRat? = some factor)
    (cut : ∀ bound : Nat, bound ≤ whole ↔ (bound : Rat) ≤ padded)
    (kept : factor = 1 ∧ padded = rounded ∨ factor ≠ 1 ∧ (estimate : Rat) ≤ padded) :
    Pads config estimate (min whole config.maxGas) := by
  refine ⟨Nat.min_le_right _ _, ?_⟩
  simp only [LosesGas, isRounded, isFactor, Option.some.injEq, exists_eq_left']
  rcases kept with ⟨rfl, rfl⟩ | ⟨adds, enough⟩
  · have estimateCut := cut estimate
    have limitCut := cut config.maxGas
    simp only [true_and, ← not_le, ← estimateCut, ← limitCut]
    omega
  · have := (cut estimate).mpr enough
    exact iff_of_true (by omega) fun ⟨one, _⟩ => adds one

end Products

theorem gasLimit_of_infinite {negative : Bool} (isEstimate : ofInt estimate = .infinite negative) :
    gasLimit config estimate = Outcome.condition .overflow := by
  simp [gasLimit, Numeral.roundInt, isEstimate, isFinite]

/-- The gas that a product leads to. -/
theorem gasLimit_of_finite {negative : Bool} {mantissa : Nat} {exponent : Int}
    (isEstimate : ofInt estimate = .finite negative mantissa exponent) :
    gasLimit config estimate =
      match (finite negative mantissa exponent).mul config.gasMargin with
      | .notANumber => Outcome.condition .badValue
      | .infinite _ => Outcome.condition .overflow
      | padded => .ok (min (padded.truncate?.getD 0) config.maxGas) := by
  simp only [gasLimit, Numeral.roundInt, isEstimate, isFinite, if_true, ok_bind]
  rfl

/-- An estimate leads to gas exactly if its product with the margin is within range. -/
theorem gasLimit_spec (margin : PipelineConfig.IsMargin config.gasMargin) (estimate : Nat) :
    (HasProduct config estimate ∧
        ∃ gas : Nat, gasLimit config estimate = .ok (gas : Int) ∧ Pads config estimate gas) ∨
      ¬HasProduct config estimate ∧ Refuses config (gasLimit config estimate) := by
  have rounds := roundsTo_ofInt estimate
  generalize isEstimate : ofInt (estimate : Int) = rounded at rounds
  cases rounds with
  | infinite _ =>
      refine Or.inr ⟨not_hasProduct_of_estimate (by rw [isEstimate]; rfl), ?_⟩
      rw [gasLimit_of_infinite isEstimate]
      exact .overflow
  | @finite mantissa exponent _ _ first =>
      rw [gasLimit_of_finite isEstimate]
      generalize isMargin : config.gasMargin = factor at margin ⊢
      cases margin with
      | notANumber =>
          have noFactor : config.gasMargin.toRat? = none := by rw [isMargin]; rfl
          exact Or.inr ⟨not_hasProduct_of_margin noFactor, .badValue noFactor⟩
      | infinite =>
          have noFactor : config.gasMargin.toRat? = none := by rw [isMargin]; rfl
          refine Or.inr ⟨not_hasProduct_of_margin noFactor, ?_⟩
          have product : (finite false mantissa exponent).mul (.infinite false) =
              if (finite false mantissa exponent).isZero then .notANumber else .infinite false :=
            rfl
          rw [product]
          split_ifs
          · exact .badValue noFactor
          · exact .overflow
      | @finite factorMantissa factorExponent onGrid large =>
          have isRounded : (ofInt estimate).toRat? = some (scaled mantissa exponent) := by
            rw [isEstimate, toRat?_finite]
            rfl
          have isFactor : config.gasMargin.toRat? =
              some (scaled factorMantissa factorExponent) := by
            rw [isMargin, toRat?_finite]
            rfl
          have rounds := roundsTo_mul false false mantissa factorMantissa exponent factorExponent
          rw [hasProduct_iff isRounded isFactor]
          generalize (finite false mantissa exponent).mul _ = padded at rounds ⊢
          cases rounds with
          | infinite beyond => exact Or.inr ⟨not_lt.mpr beyond, .overflow⟩
          | @finite paddedMantissa paddedExponent within _ second =>
              rcases truncate?_finite paddedMantissa paddedExponent with ⟨whole, truncated, cut⟩
              refine Or.inl ⟨within, min whole config.maxGas, ?_,
                pads_of_padded isRounded isFactor cut (first.padded onGrid large second)⟩
              simp only [bne_self_eq_false, truncated]
              simp

/-- The first number that is rounded down. -/
example : gasLimit { gasMargin := .ofInt 1, maxGas := 2 ^ 60 } (2 ^ 53 + 1) = .ok (2 ^ 53) := by
  rfl

section Answers

variable {pipeline : Pipeline} {request : TransactionRequest} {gap : Gap} {gaps : List Gap}
  {answer : Value} {start stop : Rat} {labels : List Label} {ending : Ending TransactionRequest}

/-- An answer decides a number of the request that comes of it, or how it fails. -/
structure Decides (config : PipelineConfig) (gap : Gap) (answer : Value)
    (ending : Ending TransactionRequest) : Prop where
  ok : ∀ number filled, gap.read config answer = .ok number → ending = .ended (.ok filled) →
    gap.of filled = some number.toNat
  error : ∀ failure, gap.read config answer = .error failure → ending = .ended (.error failure)

namespace Decides

variable {changed : TransactionRequest}

theorem of_kept (decides : Decides config gap answer (.ended (.ok changed)))
    (kept : ∀ number filled, gap.of changed = some number → ending = .ended (.ok filled) →
      gap.of filled = some number) : Decides config gap answer ending where
  ok number filled found same := kept _ filled (decides.ok number changed found rfl) same
  error failure unread := by cases decides.error failure unread

theorem of_abandons {early : Ending TransactionRequest} (decides : Decides config gap answer early)
    (abandons : Abandons early ending) : Decides config gap answer ending where
  ok number filled _ same := absurd same (abandons.noResult filled)
  error failure unread := by
    rw [decides.error failure unread] at abandons
    cases abandons
    rfl

end Decides

/-- The node told a number for a gap. -/
def IsTold (request : TransactionRequest) (gap : Gap) (answer : Value) (labels : List Label) :
    Prop :=
  ⟨gap.method, gap.params request, some (.ok answer)⟩ ∈ calls labels

theorem fill_decides (run : Run (fill config request gap) start labels ending stop)
    (told : IsTold request gap answer labels) : Decides config gap answer ending := by
  unfold fill at run
  split at run
  · rcases Run.done_inv run with ⟨rfl, _⟩
    simp [IsTold] at told
  · rw [question_eq] at run
    change Run (ask _ none fun reply => done _ >>= _) start labels ending stop at run
    cases run with
    | stuck endless => simp [IsTold, calls, Label.call?] at told
    | @ask _ _ _ reply _ _ _ _ _ early closes next =>
        have wholeRun : Run (liftM (replied (gap.read config) none reply) >>= fun number =>
            liftM (request.replace [(gap.key, .int number)])) _ _ _ _ := next
        rcases Run.lift_bind_inv wholeRun with ⟨number, found, writeRun⟩ |
          ⟨failure, unread, rfl, rfl⟩
        · rcases Run.done_inv writeRun with ⟨rfl, rfl, _⟩
          rcases replied_ok_inv found with ⟨other, rfl, readOther⟩
          obtain rfl : answer = other := by
            simpa [IsTold, calls, Label.call?] using told
          constructor
          · intro number filled readAnswer written
            cases readOther.symm.trans readAnswer
            rcases replace_eq_ok_iff.mp (Ending.ended.inj written) with ⟨_, natural, rfl, rfl⟩
            rw [Gap.of_set, Int.toNat_natCast]
          · intro failure unread
            cases readOther.symm.trans unread
        · obtain rfl : reply = .answer (.ok answer) := by
            rcases reply with outcome | _ | _ <;>
              simp [IsTold, calls, Label.call?] at told
            rw [told]
          have unread : gap.read config answer = .error failure := unread
          constructor
          · intro number filled readAnswer _
            cases unread.symm.trans readAnswer
          · intro other unreadAgain
            cases unread.symm.trans unreadAgain
            rfl

theorem callsOnly_fill : (fill config request gap).CallsOnly (· = gap.method) := by
  rw [fill]
  split
  · trivial
  · refine Asks.bind ?_ fun number => Asks.lift _
    exact Asks.bind (CallsOnly.send _ rfl) fun answer => Asks.lift _

theorem callsOnly_fillAll_gaps : (fillAll config gaps request).CallsOnly fun method =>
    ∃ gap ∈ gaps, gap.method = method := by
  induction gaps generalizing request with
  | nil => trivial
  | cons first gaps ih =>
      rw [fillAll, List.foldlM_cons]
      refine Asks.bind (callsOnly_fill.mono ?_) fun filled => ih.mono ?_
      · rintro _ rfl
        exact ⟨first, List.mem_cons_self, rfl⟩
      · rintro _ ⟨gap, member, rfl⟩
        exact ⟨gap, List.mem_cons_of_mem _ member, rfl⟩

theorem eq_of_isTold {other : Gap} {changed : TransactionRequest}
    (run : Run (fill config changed other) start labels ending stop)
    (told : IsTold request gap answer labels) : gap = other :=
  Gap.method_injective (callsOnly_fill.method_of_mem_calls run _ told)

theorem mem_of_isTold {changed : TransactionRequest}
    (run : Run (fillAll config gaps changed) start labels ending stop)
    (told : IsTold request gap answer labels) : gap ∈ gaps := by
  rcases callsOnly_fillAll_gaps.method_of_mem_calls run _ told with ⟨other, member, same⟩
  rwa [← Gap.method_injective same]

theorem fill_refuses {failure : Failure} (lacks : gap.of request = none)
    (unread : gap.read config answer = .error failure) :
    Run (fill config request gap) start
      [.asked (.call gap.method (gap.params request)) start start (.answer (.ok answer))]
      (.ended (.error failure)) start := by
  rw [fill, lacks, question_eq]
  refine Run.call (.ok answer) ?_
  have refused : replied (gap.read config) none (.answer (.ok answer)) = .error failure := unread
  dsimp only
  rw [refused]
  exact .done

/-- What is told for a gap while several are filled decides the number for this one. -/
theorem fillAll_decides (nodup : gaps.Nodup) (lacks : gap.of request = none)
    (run : Run (fillAll config gaps request) start labels ending stop)
    (told : IsTold request gap answer labels) : Decides config gap answer ending := by
  induction gaps generalizing request start labels with
  | nil =>
      rcases Run.done_inv run with ⟨rfl, _⟩
      simp [IsTold] at told
  | cons first gaps ih =>
      rcases List.nodup_cons.mp nodup with ⟨fresh, others⟩
      rw [fillAll, List.foldlM_cons] at run
      rcases Run.bind_inv run with ⟨changed, before, _, after, fillRun, restRun, rfl⟩ |
        ⟨early, fillRun, abandons⟩
      · change Run (fillAll config gaps changed) _ after ending stop at restRun
        rw [IsTold, calls_append, List.mem_append] at told
        rcases told with now | later
        · obtain rfl := eq_of_isTold fillRun now
          -- What is filled now is kept by what follows.
          refine (fill_decides fillRun now).of_kept ?_
          rintro number filled has rfl
          rcases fillAll_inv others restRun with ⟨_, fills, same⟩ | ⟨noResult, _⟩
          · cases same
            exact fills.kept gap number has
          · exact absurd rfl (noResult filled)
        · have different : gap ≠ first := by
            rintro rfl
            exact fresh (mem_of_isTold restRun later)
          rcases fill_inv fillRun with ⟨_, filledFirst, same⟩ | ⟨noResult, _⟩
          · cases same
            generalize calls before = asked at filledFirst
            cases filledFirst with
            | known _ => exact ih others lacks restRun later
            | told _ _ =>
                refine ih others ?_ restRun ?_
                · rwa [Gap.of_set_of_ne different]
                · rwa [IsTold, Gap.params_set]
          · exact absurd rfl (noResult changed)
      · obtain rfl := eq_of_isTold fillRun told
        exact (fill_decides fillRun told).of_abandons abandons

/-- What is told while a request is built decides the number for the gap. -/
theorem build_decides (gap : Gap) (lacks : gap.of request = none)
    (run : Run (pipeline.onNode.build request) start labels ending stop)
    (told : IsTold (pipeline.addressed request) gap answer labels) :
    Decides pipeline.config gap answer ending := by
  rw [build_eq] at run
  rcases Run.lift_bind_inv run with ⟨_, _, fillRun⟩ | ⟨failure, _, rfl, _⟩
  · rcases Run.bind_inv fillRun with ⟨filled, before, _, after, fillsRun, feesRun, rfl⟩ |
      ⟨early, fillsRun, abandons⟩
    · have toldBefore : IsTold (pipeline.addressed request) gap answer before := by
        rcases Run.lift_bind_inv feesRun with ⟨_, _, noteRun⟩ | ⟨_, _, rfl, _⟩
        · rcases Run.emit_bind_inv noteRun with ⟨_, doneRun, rfl⟩
          rcases Run.done_inv doneRun with ⟨rfl, _⟩
          simpa [IsTold] using told
        · simpa [IsTold] using told
      have decides := fillAll_decides Gap.nodup_all (of_addressed.trans lacks) fillsRun toldBefore
      refine decides.of_kept ?_
      rintro number built has rfl
      rcases Run.lift_bind_inv feesRun with ⟨priced, applied, noteRun⟩ | ⟨_, _, _, same⟩
      · rcases Run.emit_bind_inv noteRun with ⟨_, doneRun, _⟩
        rcases Run.done_inv doneRun with ⟨_, same, _⟩
        cases same
        rwa [(FeeDefaults.apply_inv applied).of]
      · cases same
    · have decides := fillAll_decides Gap.nodup_all (of_addressed.trans lacks) fillsRun told
      exact decides.of_abandons abandons
  · simp [IsTold] at told

/-- A request may be built to such an end when the node answers the question for gas so. -/
def EndsWith (pipeline : Pipeline) (request : TransactionRequest) (answer : Value)
    (ending : Ending TransactionRequest) : Prop :=
  ∃ start labels stop, Run (pipeline.onNode.build request) start labels ending stop ∧
    IsTold (pipeline.addressed request) .gas answer labels

/-- With this answer to the question for gas nothing is left in the way of building a request: if it
names one way to pay at most, natural numbers for the other gaps complete it. -/
def Completable (pipeline : Pipeline) (request : TransactionRequest) (answer : Value) : Prop :=
  ∀ answers : Gap → Value, answers .gas = answer →
    (∀ gap, gap ≠ .gas → gap.of request = none →
      ∃ number : Nat, Quantity.toInt (answers gap) = .ok (number : Int)) →
    (pipeline.addressed request).IsAddressed → request.checkFeeModel = .ok () →
      ∀ start, ∃ built, Reaches (pipeline.onNode.build request) start
        (filling answers Gap.all (pipeline.addressed request)) (.ended (.ok built))

/-- The gas that an estimate leads to. If the product of the estimate and the margin is within
range, then the request can be built, and what is built has gas within the limit that covers the
estimate, unless it is lost. If there is no such product, the build fails once the estimate is
told. -/
theorem build_pads_estimate {entries : Dict} {estimate : Nat}
    (accepted : PipelineConfig.read entries = .valid pipeline.config)
    (doubles : ∀ margin, Dict.get? entries "gas_margin" = some (.float margin) → margin.IsDouble)
    (lacks : request.gas = none) (estimated : Quantity.toInt answer = .ok (estimate : Int)) :
    (HasProduct pipeline.config estimate ∧ pipeline.Completable request answer ∧
        ∃ gas, Pads pipeline.config estimate gas ∧
          ∀ built, pipeline.EndsWith request answer (.ended (.ok built)) → built.gas = some gas) ∨
      ¬HasProduct pipeline.config estimate ∧ ∃ failure, Refuses pipeline.config (.error failure) ∧
        ∀ ending, pipeline.EndsWith request answer ending → ending = .ended (.error failure) := by
  have margin := PipelineConfig.isMargin_of_read doubles accepted
  have reads : Gap.read pipeline.config answer .gas = gasLimit pipeline.config estimate := by
    rw [Gap.read, estimated, ok_bind]
  rcases gasLimit_spec margin estimate with ⟨product, gas, found, pads⟩ | ⟨noProduct, refuses⟩
  · refine Or.inl ⟨product, ?_, gas, pads, ?_⟩
    · rintro answers rfl others withAddress oneModel start
      refine build_reaches withAddress oneModel ?_
      intro gap lacksGap
      cases gap with
      | gas => exact ⟨gas, reads.trans found⟩
      | nonce => exact others .nonce (by decide) lacksGap
      | chainId => exact others .chainId (by decide) lacksGap
    · rintro built ⟨start, labels, stop, run, told⟩
      exact (build_decides .gas lacks run told).ok gas built (reads.trans found) rfl
  · generalize gasLimit pipeline.config estimate = outcome at reads refuses
    have unread : ∃ failure, outcome = .error failure := by
      cases refuses <;> exact ⟨_, rfl⟩
    rcases unread with ⟨failure, rfl⟩
    refine Or.inr ⟨noProduct, failure, refuses, ?_⟩
    rintro ending ⟨start, labels, stop, run, told⟩
    exact (build_decides .gas lacks run told).error failure reads

end Answers

section Examples

/-- A pipeline that doubles what is estimated. -/
def doubling : Pipeline :=
  { plain with config := { gasMargin := .ofInt 2 } }

/-- A request that lacks its gas only. -/
def gasless : TransactionRequest :=
  { recipient := some ⟨List.replicate 20 1⟩, nonce := some 0, chainId := some 1 }

theorem read_doubling :
    PipelineConfig.read [("gas_margin", .float (ofInt 2))] = .valid doubling.config := by
  have large : (ofInt 2).lt (ofInt 1) = false := by decide +kernel
  simp [PipelineConfig.read, Schema.field, Dict.get?, PipelineConfig.margin, Schema.float,
    Checked.require, Checked.andThen, Checked.under, large]
  rfl

theorem build_pads_estimate_doubled :
    PipelineConfig.read [("gas_margin", .float (ofInt 2))] = .valid doubling.config ∧
      HasProduct doubling.config 21000 ∧ doubling.Completable gasless (.text "0x5208") ∧
        ∃ gas, Pads doubling.config 21000 gas ∧ ∀ built,
          doubling.EndsWith gasless (.text "0x5208") (.ended (.ok built)) →
            built.gas = some gas := by
  have doubles : ∀ margin, Dict.get? [("gas_margin", Value.float (ofInt 2))] "gas_margin" =
      some (.float margin) → margin.IsDouble := by
    rintro margin ⟨⟩
    exact isDouble_ofInt 2
  have product : HasProduct doubling.config 21000 := by
    refine ⟨21000, 2, by decide +kernel, by decide +kernel, ?_⟩
    have unit : (1 : Rat) ≤ 2 ^ (970 : Int) := one_le_zpow₀ (by norm_num) (by norm_num)
    unfold overflowLimit scaled
    generalize (2 : Rat) ^ (970 : Int) = power at unit ⊢
    norm_num
    linarith
  refine ⟨read_doubling, ?_⟩
  have estimated : Quantity.toInt (.text "0x5208") = .ok ((21000 : Nat) : Int) := rfl
  have lacks : gasless.gas = none := rfl
  rcases build_pads_estimate read_doubling doubles lacks estimated with padded | ⟨noProduct, _⟩
  · exact padded
  · exact absurd product noProduct

/-- An estimate that is told by a node which misbehaves. -/
def excessive : Value :=
  .text (Quantity.ofNat (2 ^ 1024 - 1))

theorem excessive_overflows :
    PipelineConfig.read [("gas_margin", .float (ofInt 2))] = .valid doubling.config ∧
      Quantity.toInt excessive = .ok ((2 ^ 1024 - 1 : Nat) : Int) ∧
        doubling.EndsWith gasless excessive (.ended (.error (.condition .overflow ""))) := by
  have estimated := Quantity.toInt_ofNat (2 ^ 1024 - 1)
  have infinite : ofInt ((2 ^ 1024 - 1 : Nat) : Int) = .infinite false := by decide +kernel
  have unread : Gap.read doubling.config excessive .gas = Outcome.condition .overflow := by
    rw [Gap.read, excessive, estimated, ok_bind, gasLimit_of_infinite infinite]
  let estimateTold : Label :=
    .asked (.call "eth_estimateGas" (Gap.params (doubling.addressed gasless) .gas)) 0 0
      (.answer (.ok excessive))
  have run : Run (doubling.onNode.build gasless) 0 [estimateTold]
      (.ended (.error (.condition .overflow ""))) 0 := by
    rw [build_eq]
    have oneModel : gasless.checkFeeModel = .ok () := rfl
    refine Run.lift_bind oneModel (Run.bind_of_error ?_)
    change Run (fill doubling.config (doubling.addressed gasless) .gas >>=
      fillAll doubling.config [.chainId]) _ _ _ _
    exact (fill_refuses rfl unread).bind_of_error
  exact ⟨read_doubling, estimated, 0, _, 0, run, List.mem_singleton_self _⟩

end Examples

end Pipeline

end ContractClient
