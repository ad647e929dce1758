import ContractClient.Proofs.Transaction.Confirmation
import ContractClient.Proofs.Transaction.Draft

/-!
# Building transactions

A request is completed by filling its gaps one after the other. What has a number is left alone; for
the others the node is asked, always in the same order and with the same parameters whatever it has
answered before (`Pipeline.fillAll_inv`). So what is asked depends on the request only, also when a
question fails, and a completed request is completed again without any question
(`Pipeline.build_fills_gaps`). If the node tells natural numbers the request is completed
(`Pipeline.build_reaches`).
-/

namespace ContractClient

open Activity TransactionRequest

namespace TransactionRequest.Gap

/-- The method that tells a number. -/
def method : Gap → String
  | nonce => "eth_getTransactionCount"
  | gas => "eth_estimateGas"
  | chainId => "eth_chainId"

def params (request : TransactionRequest) : Gap → List Value
  | nonce => [Value.ofOption (addressText request.sender), .text "pending"]
  | gas => [.dict (Pipeline.callOfRequest request)]
  | chainId => []

/-- The number that an answer tells. -/
def read (config : PipelineConfig) (answer : Value) : Gap → Outcome Int
  | gas => do Pipeline.gasLimit config (← Quantity.toInt answer)
  | _ => Quantity.toInt answer

/-- The question for a number. -/
def query (request : TransactionRequest) (gap : Gap) : String × List Value :=
  (gap.method, gap.params request)

variable {gap other : Gap} {request : TransactionRequest} {number : Nat}

/-- Nothing that a node tells is part of another question. -/
@[simp]
theorem params_set : other.params (gap.set request number) = other.params request := by
  cases gap <;> cases other <;> rfl

end TransactionRequest.Gap

namespace Pipeline

variable {pipeline : Pipeline} {request filled : TransactionRequest} {gap : Gap} {gaps : List Gap}
  {start stop : Rat} {labels : List Label} {ending : Ending TransactionRequest}

def fill (config : PipelineConfig) (request : TransactionRequest) (gap : Gap) :
    Activity TransactionRequest :=
  match gap.of request with
  | some _ => pure request
  | none => question gap.method (gap.params request) (gap.read config) >>= fun number =>
    liftM (request.replace [(gap.key, .int number)])

def fillAll (config : PipelineConfig) (gaps : List Gap) (request : TransactionRequest) :
    Activity TransactionRequest :=
  gaps.foldlM (fill config) request

theorem fillNonce_eq : pipeline.onNode.fillNonce request = fill pipeline.config request .nonce := by
  rw [fillNonce, fill, Gap.of]
  cases request.nonce with
  | some nonce => rfl
  | none => exact (bind_assoc ..).symm

theorem fillGas_eq : pipeline.onNode.fillGas request = fill pipeline.config request .gas := by
  rw [fillGas, fill, Gap.of]
  cases request.gas with
  | some gas => rfl
  | none =>
      have estimate : pipeline.onNode.estimateGas request =
          question Gap.gas.method (Gap.gas.params request) (Gap.gas.read pipeline.config) := by
        refine bind_congr fun answer => ?_
        dsimp only [Gap.read]
        cases Quantity.toInt answer <;> rfl
      dsimp only
      rw [estimate]
      rfl

theorem fillChainId_eq :
    pipeline.onNode.fillChainId request = fill pipeline.config request .chainId := by
  rw [fillChainId, fill, Gap.of]
  cases request.chainId with
  | some chainId => rfl
  | none => exact (bind_assoc ..).symm

/-- How a gap is filled: not at all if there is none, and else with the number that a node tells. -/
inductive Filled (config : PipelineConfig) (request : TransactionRequest) (gap : Gap) :
    List NodeCall → TransactionRequest → Prop where
  | known {number : Nat} (has : gap.of request = some number) : Filled config request gap [] request
  | told {answer : Value} {number : Nat} (lacks : gap.of request = none)
      (found : gap.read config answer = .ok (number : Int)) :
      Filled config request gap [⟨gap.method, gap.params request, some (.ok answer)⟩]
        (gap.set request number)

theorem Questioned.asks {α : Type} {method : String} {params : List Value}
    {read : Value → Outcome α} {asked : List NodeCall} {ending : Ending α}
    (questioned : Questioned method params read asked ending) :
    asked.map NodeCall.request <+: [(method, params)] := by
  cases questioned with
  | late _ => exact List.nil_prefix
  | _ => exact List.prefix_rfl

theorem fill_inv {config : PipelineConfig}
    (run : Run (fill config request gap) start labels ending stop) :
    (∃ filled, Filled config request gap (calls labels) filled ∧ ending = .ended (.ok filled)) ∨
      ending.NoResult ∧ gap.of request = none ∧
        (calls labels).map NodeCall.request <+: [gap.query request] := by
  unfold fill at run
  split at run
  · next number has =>
      rcases Run.done_inv run with ⟨rfl, rfl, _⟩
      exact Or.inl ⟨request, .known has, rfl⟩
  · next lacks =>
      rcases Run.bind_inv run with ⟨number, before, _, after, askRun, writeRun, rfl⟩ |
        ⟨early, askRun, abandons⟩
      · rcases (question_inv askRun).of_result with ⟨answer, found, asked⟩
        rcases Run.done_inv writeRun with ⟨rfl, rfl, _⟩
        rw [List.append_nil, asked]
        -- The answer may tell a number that the request cannot take.
        cases written : request.replace [(gap.key, .int number)] with
        | ok changed =>
            rcases replace_eq_ok_iff.mp written with ⟨_, natural, rfl, rfl⟩
            exact Or.inl ⟨_, .told lacks found, rfl⟩
        | error failure =>
            exact Or.inr ⟨Ending.noResult_error, lacks, List.prefix_rfl⟩
      · exact Or.inr ⟨abandons.noResult, lacks, (question_inv askRun).asks⟩

/-- The gaps that a request has. -/
def lacking (gaps : List Gap) (request : TransactionRequest) : List Gap :=
  gaps.filter fun gap => (gap.of request).isNone

/-- The questions for the gaps that a request has. -/
def openQuestions (gaps : List Gap) (request : TransactionRequest) : List (String × List Value) :=
  (lacking gaps request).map (Gap.query request)

/-- Gaps are filled: the node has told a number for each, and nothing else is changed. -/
structure FillsAll (config : PipelineConfig) (gaps : List Gap) (request : TransactionRequest)
    (asked : List NodeCall) (filled : TransactionRequest) : Prop where
  asks : asked.map NodeCall.request = openQuestions gaps request
  told : ∀ gap ∈ gaps, gap.of request = none → ∃ answer, ∃ number : Nat,
    ⟨gap.method, gap.params request, some (.ok answer)⟩ ∈ asked ∧
      gap.read config answer = .ok (number : Int) ∧ gap.of filled = some number
  kept : ∀ (gap : Gap) (number : Nat), gap.of request = some number → gap.of filled = some number
  frame : filled = { request with
    nonce := filled.nonce, gas := filled.gas, chainId := filled.chainId }

theorem lacking_cons_of_some {number : Nat} (has : gap.of request = some number) :
    lacking (gap :: gaps) request = lacking gaps request := by
  simp [lacking, has]

theorem lacking_cons_of_none (lacks : gap.of request = none) :
    lacking (gap :: gaps) request = gap :: lacking gaps request := by
  simp [lacking, lacks]

theorem lacking_set {number : Nat} (fresh : gap ∉ gaps) :
    lacking gaps (gap.set request number) = lacking gaps request := by
  apply List.filter_congr
  intro other member
  have different : other ≠ gap := by
    rintro rfl
    exact fresh member
  rw [Gap.of_set_of_ne different]

theorem openQuestions_cons_of_some {number : Nat} (has : gap.of request = some number) :
    openQuestions (gap :: gaps) request = openQuestions gaps request := by
  rw [openQuestions, lacking_cons_of_some has, openQuestions]

theorem openQuestions_cons_of_none {number : Nat} (lacks : gap.of request = none)
    (fresh : gap ∉ gaps) :
    openQuestions (gap :: gaps) request =
      gap.query request :: openQuestions gaps (gap.set request number) := by
  have sameQueries : Gap.query (gap.set request number) = Gap.query request := by
    funext other
    rw [Gap.query, Gap.query, Gap.params_set]
  rw [openQuestions, lacking_cons_of_none lacks, List.map_cons, openQuestions, lacking_set fresh,
    sameQueries]

theorem Filled.cons {config : PipelineConfig} {here later : List NodeCall}
    {changed : TransactionRequest} (fresh : gap ∉ gaps)
    (first : Filled config request gap here changed)
    (rest : FillsAll config gaps changed later filled) :
    FillsAll config (gap :: gaps) request (here ++ later) filled := by
  cases first with
  | @known number has =>
      refine ⟨?_, ?_, rest.kept, rest.frame⟩
      · rw [List.nil_append, rest.asks, openQuestions_cons_of_some has]
      · intro other member lacks
        rcases List.mem_cons.mp member with rfl | later
        · simp [has] at lacks
        · exact rest.told other later lacks
  | @told answer number lacks found =>
      have filledHere : gap.of filled = some number := rest.kept gap number Gap.of_set
      refine ⟨?_, ?_, ?_, ?_⟩
      · rw [List.map_append, rest.asks, openQuestions_cons_of_none lacks fresh]
        rfl
      · intro other member otherLacks
        by_cases same : other = gap
        · subst same
          exact ⟨answer, number, by simp, found, filledHere⟩
        · have later : other ∈ gaps := (List.mem_cons.mp member).resolve_left same
          have stillLacks : other.of (gap.set request number) = none := by
            rwa [Gap.of_set_of_ne same]
          rcases rest.told other later stillLacks with ⟨reply, told, asked, read, has⟩
          rw [Gap.params_set] at asked
          exact ⟨reply, told, List.mem_append_right _ asked, read, has⟩
      · intro other known has
        have different : other ≠ gap := by
          rintro rfl
          simp [lacks] at has
        exact rest.kept other known (by rwa [Gap.of_set_of_ne different])
      · have frame := rest.frame
        cases gap <;> exact frame

theorem fillAll_inv {config : PipelineConfig} (nodup : gaps.Nodup)
    (run : Run (fillAll config gaps request) start labels ending stop) :
    (∃ filled, FillsAll config gaps request (calls labels) filled ∧ ending = .ended (.ok filled)) ∨
      ending.NoResult ∧
        (calls labels).map NodeCall.request <+: openQuestions gaps request := by
  induction gaps generalizing request start labels with
  | nil =>
      rcases Run.done_inv run with ⟨rfl, rfl, _⟩
      exact Or.inl ⟨request, ⟨rfl, by simp, fun _ _ has => has, rfl⟩, rfl⟩
  | cons gap gaps ih =>
      rcases List.nodup_cons.mp nodup with ⟨fresh, nodup⟩
      rw [fillAll, List.foldlM_cons] at run
      rcases Run.bind_inv run with ⟨changed, before, _, after, fillRun, restRun, rfl⟩ |
        ⟨early, fillRun, abandons⟩
      · rcases fill_inv fillRun with ⟨filled, here, same⟩ | ⟨noResult, _⟩
        · cases same
          rw [calls_append]
          rcases ih nodup restRun with ⟨result, rest, rfl⟩ | ⟨noResult, isPrefix⟩
          · exact Or.inl ⟨result, here.cons fresh rest, rfl⟩
          · refine Or.inr ⟨noResult, ?_⟩
            rw [List.map_append]
            generalize calls before = asked at here ⊢
            cases here with
            | known has =>
                rw [openQuestions_cons_of_some has]
                exact isPrefix
            | told lacks _ =>
                rw [openQuestions_cons_of_none lacks fresh]
                exact List.cons_prefix_cons.mpr ⟨rfl, isPrefix⟩
        · exact absurd rfl (noResult changed)
      · rcases fill_inv fillRun with ⟨filled, _, same⟩ | ⟨noResult, lacks, isPrefix⟩
        · subst same
          cases abandons
        · refine Or.inr ⟨abandons.noResult, ?_⟩
          rw [openQuestions, lacking_cons_of_none lacks, List.map_cons]
          exact isPrefix.trans (by simp)

theorem fill_reaches {config : PipelineConfig} {answer : Value} {number : Nat}
    (addressed : request.IsAddressed) (lacks : gap.of request = none)
    (tells : gap.read config answer = .ok (number : Int)) :
    Reaches (fill config request gap) start [⟨gap.method, gap.params request, some (.ok answer)⟩]
      (.ended (.ok (gap.set request number))) := by
  have written : request.replace [(gap.key, .int number)] = .ok (gap.set request number) :=
    replace_eq_ok_iff.mpr ⟨addressed, number, rfl, rfl⟩
  rw [fill, lacks, question_eq]
  refine .call ?_
  change Reaches (done (gap.read config answer) >>= _) _ _ _
  rw [tells]
  change Reaches (done (request.replace _)) _ _ _
  rw [written]
  exact .done

/-- The calls by which a node fills the gaps of a request. -/
def filling (answers : Gap → Value) (gaps : List Gap) (request : TransactionRequest) :
    List NodeCall :=
  (lacking gaps request).map fun gap =>
    ⟨gap.method, gap.params request, some (.ok (answers gap))⟩

/-- Gaps are filled when the node tells natural numbers for them. -/
theorem fillAll_reaches {config : PipelineConfig} {answers : Gap → Value} (nodup : gaps.Nodup)
    (addressed : request.IsAddressed)
    (tells : ∀ gap ∈ gaps, gap.of request = none →
      ∃ number : Nat, gap.read config (answers gap) = .ok (number : Int)) :
    ∃ filled, ∀ start, Reaches (fillAll config gaps request) start (filling answers gaps request)
      (.ended (.ok filled)) := by
  induction gaps generalizing request with
  | nil => exact ⟨request, fun start => .done⟩
  | cons gap gaps ih =>
      rcases List.nodup_cons.mp nodup with ⟨fresh, nodup⟩
      rw [fillAll, filling]
      simp only [List.foldlM_cons]
      cases has : gap.of request with
      | some number =>
          rw [fill, has, lacking_cons_of_some has]
          exact ih nodup addressed fun other member => tells other (List.mem_cons_of_mem _ member)
      | none =>
          rcases tells gap List.mem_cons_self has with ⟨number, told⟩
          have stillTells : ∀ other ∈ gaps, other.of (gap.set request number) = none →
              ∃ number : Nat, other.read config (answers other) = .ok (number : Int) := by
            intro other member lacks
            have different : other ≠ gap := by
              rintro rfl
              exact fresh member
            rw [Gap.of_set_of_ne different] at lacks
            exact tells other (List.mem_cons_of_mem _ member) lacks
          rcases ih nodup (Gap.isAddressed_set addressed) stillTells with ⟨filled, reaches⟩
          have sameCalls : filling answers gaps (gap.set request number) =
              (lacking gaps request).map fun gap =>
                ⟨gap.method, gap.params request, some (.ok (answers gap))⟩ := by
            simp only [filling, lacking_set fresh, Gap.params_set]
          rw [sameCalls] at reaches
          rw [lacking_cons_of_none has]
          exact ⟨filled, fun start => (fill_reaches addressed has told).bind reaches⟩

/-- A request with the account that pays for it. -/
def addressed (pipeline : Pipeline) (request : TransactionRequest) : TransactionRequest :=
  { request with sender := some (request.sender.getD pipeline.signer.address) }

theorem of_addressed : gap.of (pipeline.addressed request) = gap.of request := by
  cases gap <;> rfl

def noteBuilt (built : TransactionRequest) : Activity TransactionRequest := do
  Activity.note .debug logger "Transaction built" [
    ("from", Value.ofOption (addressText built.sender)),
    ("to", Value.ofOption (addressText built.recipient)),
    ("nonce", .ofNat? built.nonce), ("gas", .ofNat? built.gas), ("chain_id", .ofNat? built.chainId)]
  return built

theorem build_eq :
    pipeline.onNode.build request = (do
      request.checkFeeModel
      let filled ← fillAll pipeline.config Gap.all (pipeline.addressed request)
      let built ← pipeline.config.fees.apply filled
      noteBuilt built) := by
  have withSender : pipeline.addressed request = { request with
      sender := request.sender <|> some pipeline.onNode.signer.address } := by
    rw [addressed]
    cases request.sender <;> rfl
  rw [build, withSender]
  simp only [fillNonce_eq, fillGas_eq, fillChainId_eq, fillAll, Gap.all, List.foldlM_cons,
    List.foldlM_nil, bind_assoc, pure_bind]
  rfl

/-- The methods by which gaps are filled. -/
def IsFilling (method : String) : Prop :=
  ∃ gap : Gap, gap.method = method

theorem callsOnly_fillAll {config : PipelineConfig} :
    (fillAll config gaps request).CallsOnly IsFilling := by
  induction gaps generalizing request with
  | nil => trivial
  | cons gap gaps ih =>
      rw [fillAll, List.foldlM_cons]
      refine Asks.bind ?_ fun filled => ih
      rw [fill]
      split
      · trivial
      · refine Asks.bind ?_ fun number => Asks.lift _
        exact (CallsOnly.send _ ⟨gap, rfl⟩).bind fun answer => Asks.lift _

theorem callsOnly_build : (pipeline.onNode.build request).CallsOnly IsFilling := by
  rw [build_eq]
  refine (Asks.lift _).bind fun _ => callsOnly_fillAll.bind fun filled => ?_
  exact (Asks.lift _).bind fun built => trivial

theorem fillAll_eq_pure {config : PipelineConfig}
    (complete : ∀ gap : Gap, ∃ number, gap.of request = some number) :
    fillAll config gaps request = pure request := by
  induction gaps with
  | nil => rfl
  | cons gap gaps ih =>
      rcases complete gap with ⟨number, has⟩
      rw [fillAll, List.foldlM_cons, fill, has]
      exact ih

/-- What comes of a request: its gaps are filled and its fees are the ones of the configuration;
what it had is kept. The result can be signed unless a fee is missing, and is complete. -/
structure Completes (pipeline : Pipeline) (request : TransactionRequest) (asked : List NodeCall)
    (built : TransactionRequest) : Prop where
  asks : asked.map NodeCall.request = openQuestions Gap.all (pipeline.addressed request)
  told : ∀ gap : Gap, gap.of request = none → ∃ answer, ∃ number : Nat,
    ⟨gap.method, gap.params (pipeline.addressed request), some (.ok answer)⟩ ∈ asked ∧
      gap.read pipeline.config answer = .ok (number : Int) ∧ gap.of built = some number
  keeps : built.Keeps request
  sender : built.sender = some (request.sender.getD pipeline.signer.address)
  priced : pipeline.config.fees.apply { request with
    sender := built.sender, nonce := built.nonce, gas := built.gas, chainId := built.chainId } =
      .ok built
  signable : ∀ signer, built.checkSignable signer = .ok () ↔ ¬built.LacksFee
  /-- When it is built again, this is noted, and that is all. -/
  stable : ∃ record, pipeline.onNode.build built = .tell (.note record) (.done (.ok built))

theorem keeps_addressed : (pipeline.addressed request).Keeps request := by
  constructor <;> simp +contextual [addressed]

theorem FillsAll.keeps {config : PipelineConfig} {asked : List NodeCall}
    (fills : FillsAll config gaps request asked filled) : filled.Keeps request := by
  have frame := fills.frame
  constructor
  case gas => exact fills.kept .gas
  case nonce => exact fills.kept .nonce
  case chainId => exact fills.kept .chainId
  all_goals rw [frame]
  all_goals simp

theorem completes_of_fillsAll {asked : List NodeCall} {built : TransactionRequest}
    (single : pipeline.config.fees.hasSingleModel = true)
    (fills : FillsAll pipeline.config Gap.all (pipeline.addressed request) asked filled)
    (priced : pipeline.config.fees.apply filled = .ok built) :
    pipeline.Completes request asked built := by
  have prices := FeeDefaults.apply_inv priced
  have oneModel := prices.checkFeeModel single
  have complete : ∀ gap : Gap, ∃ number, gap.of built = some number := by
    intro gap
    rw [prices.of]
    cases has : gap.of (pipeline.addressed request) with
    | some number => exact ⟨number, fills.kept gap number has⟩
    | none =>
        rcases fills.told gap gap.mem_all has with ⟨_, number, _, _, told⟩
        exact ⟨number, told⟩
  have sender : built.sender = some (request.sender.getD pipeline.signer.address) := by
    rw [prices.sender, fills.frame]
    rfl
  have draft : filled = { request with
      sender := built.sender, nonce := built.nonce, gas := built.gas,
      chainId := built.chainId } := by
    have sameNonce : built.nonce = filled.nonce := prices.of .nonce
    have sameGas : built.gas = filled.gas := prices.of .gas
    have sameChainId : built.chainId = filled.chainId := prices.of .chainId
    rw [sender, sameNonce, sameGas, sameChainId]
    exact fills.frame
  refine ⟨fills.asks, ?_, ?_, sender, ?_, ?_, ?_⟩
  · intro gap lacks
    rw [prices.of]
    exact fills.told gap gap.mem_all (of_addressed.trans lacks)
  · exact prices.keeps.trans (fills.keeps.trans keeps_addressed)
  · rwa [← draft]
  · exact fun signer => checkSignable_eq_ok_iff signer complete oneModel
  · have same : pipeline.addressed built = built := by
      rw [addressed, sender, Option.getD_some, ← sender]
    rw [build_eq, oneModel, same, fillAll_eq_pure complete]
    simp only [pure_bind, prices.apply_eq_self single]
    exact ⟨_, rfl⟩

/-- A request is completed when the node tells natural numbers for what it lacks. -/
theorem build_reaches {answers : Gap → Value}
    (withAddress : (pipeline.addressed request).IsAddressed)
    (oneModel : request.checkFeeModel = .ok ())
    (tells : ∀ gap : Gap, gap.of request = none →
      ∃ number : Nat, gap.read pipeline.config (answers gap) = .ok (number : Int)) :
    ∃ built, Reaches (pipeline.onNode.build request) start
      (filling answers Gap.all (pipeline.addressed request)) (.ended (.ok built)) := by
  have stillTells : ∀ gap ∈ Gap.all, gap.of (pipeline.addressed request) = none →
      ∃ number : Nat, gap.read pipeline.config (answers gap) = .ok (number : Int) := by
    intro gap _ lacks
    rw [of_addressed] at lacks
    exact tells gap lacks
  rcases fillAll_reaches Gap.nodup_all withAddress stillTells with ⟨filled, reaches⟩
  have stillOneModel : filled.checkFeeModel = .ok () := by
    rcases reaches start with ⟨_, _, run, _⟩
    rcases fillAll_inv Gap.nodup_all run with ⟨_, fills, same⟩ | ⟨noResult, _⟩
    · cases same
      rw [fills.frame]
      exact oneModel
    · exact absurd rfl (noResult filled)
  rcases FeeDefaults.apply_eq_ok stillOneModel with ⟨built, applied⟩
  have priced : ∀ now, Reaches (liftM (pipeline.config.fees.apply filled) >>= noteBuilt) now []
      (.ended (.ok built)) := by
    intro now
    rw [applied]
    exact .tell .done
  rw [build_eq, oneModel, ← List.append_nil (filling _ _ _)]
  exact ⟨built, (reaches start).bind priced⟩

/-- Building a request fills its gaps and does nothing else. Whatever a node answers, it is asked
for the numbers that the request lacks and for nothing else, each at most once and in the same
order; a request with both ways to pay is refused before. A request is a value: what is built from
it is another one, however the build ends. -/
theorem build_fills_gaps (single : pipeline.config.fees.hasSingleModel = true)
    (run : Run (pipeline.onNode.build request) start labels ending stop) :
    (request.hasLegacyFee = true ∧ request.hasDynamicFee = true →
        requests labels = [] ∧ ending = .ended (.error (.fault (.validation
          "gas_price and max_fee_per_gas/max_priority_fee_per_gas are mutually exclusive")))) ∧
      requests labels = (calls labels).map NodeCall.request ∧
        requests labels <+: openQuestions Gap.all (pipeline.addressed request) ∧
          ∀ built, ending = .ended (.ok built) →
            pipeline.Completes request (calls labels) built := by
  have requestsAreCalls : requests labels = (calls labels).map NodeCall.request :=
    requests_eq_calls (callsOnly_build.of_run run)
  rw [requestsAreCalls]
  rw [build_eq] at run
  rcases Run.lift_bind_inv run with ⟨_, oneModel, fillRun⟩ | ⟨failure, refused, rfl, rfl⟩
  · refine ⟨fun both => absurd both (checkFeeModel_eq_ok_iff.mp oneModel), rfl, ?_⟩
    rcases Run.bind_inv fillRun with ⟨filled, before, _, after, fillsRun, feesRun, rfl⟩ |
      ⟨early, fillsRun, abandons⟩
    · rcases fillAll_inv Gap.nodup_all fillsRun with ⟨_, fills, same⟩ | ⟨noResult, _⟩
      · cases same
        rcases Run.lift_bind_inv feesRun with ⟨priced, applied, noteRun⟩ | ⟨failure, _, rfl, rfl⟩
        · rcases Run.emit_bind_inv noteRun with ⟨_, doneRun, rfl⟩
          rcases Run.done_inv doneRun with ⟨rfl, rfl, _⟩
          rw [calls_append, calls_told, calls_nil, List.append_nil, fills.asks]
          refine ⟨List.prefix_rfl, ?_⟩
          rintro built ⟨⟩
          exact completes_of_fillsAll single fills applied
        · rw [List.append_nil, fills.asks]
          exact ⟨List.prefix_rfl, nofun⟩
      · exact absurd rfl (noResult filled)
    · rcases fillAll_inv Gap.nodup_all fillsRun with ⟨_, _, rfl⟩ | ⟨_, isPrefix⟩
      · cases abandons
      · exact ⟨isPrefix, fun built same => absurd same (abandons.noResult built)⟩
  · refine ⟨fun _ => ⟨rfl, ?_⟩, rfl, List.nil_prefix, nofun⟩
    rw [checkFeeModel] at refused
    split at refused <;> cases refused
    rfl

section Examples

/-- A pipeline with a priority fee for requests that name none. -/
def tipping : Pipeline :=
  { plain with config := { plain.config with fees := { maxPriorityFeePerGas := some 1 } } }

/-- A request that names no more than its recipient and a fee cap. -/
def capped : TransactionRequest :=
  { recipient := some ⟨List.replicate 20 1⟩, maxFeePerGas := some 2 }

theorem build_fills_gaps_answered :
    let asked := filling (fun _ => .text "0x5208") Gap.all (tipping.addressed capped)
    tipping.config.fees.hasSingleModel = true ∧
      ∃ built, Reaches (tipping.onNode.build capped) 0 asked (.ended (.ok built)) ∧
        tipping.Completes capped asked built := by
  intro asked
  have withAddress : (tipping.addressed capped).IsAddressed := by
    constructor <;> rintro _ ⟨⟩ <;> rfl
  have tells : ∀ gap : Gap, gap.of capped = none →
      ∃ number : Nat, gap.read tipping.config (.text "0x5208") = .ok (number : Int) := by
    intro gap _
    cases gap <;> exact ⟨21000, rfl⟩
  rcases build_reaches withAddress rfl tells with ⟨built, labels, stop, run, sameCalls⟩
  refine ⟨rfl, built, ⟨labels, stop, run, sameCalls⟩, ?_⟩
  have completes := (build_fills_gaps rfl run).2.2.2 built rfl
  rwa [sameCalls] at completes

end Examples

end Pipeline

end ContractClient
