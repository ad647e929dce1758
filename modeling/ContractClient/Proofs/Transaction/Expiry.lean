import ContractClient.Proofs.Transaction.Aftermath

/-!
# Waits that expire

A wait with a limit of time reports that the limit has passed at one of its questions for a receipt
or for the head, or before a pause (`Pipeline.ReportsTimeout`). It does so before the limit exactly
if the transport met such a question with a timeout of its own (`Pipeline.expires_early_iff`): a
wait takes every timeout in a step for the one at its deadline. A timeout in the replay of a failed
transaction only leaves the failure without a reason.

What a run shows of timeouts is followed step by step (`Pipeline.Paced`): a step says nothing about
the limits, or it is the last one and ends with a report.
-/

namespace ContractClient

/-- A question for a receipt or for the head met a timeout that is the transport's own. -/
def NodeCall.IsOwnTimeout (call : NodeCall) : Prop :=
  (call.method = "eth_getTransactionReceipt" ∨ call.method = "eth_blockNumber") ∧
    ∃ text, call.answer = some (.error (.condition .timeout text))

namespace Pipeline

variable {α β : Type} {pipeline : Pipeline} {pending : PendingTransaction} {bound : WaitBound}
  {timeout : Binary64} {txHash : Value} {deadline : Option Rat} {start stop : Rat}
  {labels before after : List Label} {ending : Ending α}

open Activity PendingTransaction

/-- The last that is seen of a wait that expires. -/
inductive Reported (txHash : Value) (timeout blocks : Option Value) (stop : Rat) :
    List Label → Ending α → Prop where
  | intro {known : PendingTransaction} {record : LogRecord} (expired : known.state = .timedOut) :
      Reported txHash timeout blocks stop
        [.told stop (.progress known), .told stop (.note record)]
        (.ended (.error (.fault (.confirmationTimeout txHash timeout blocks))))

theorem reported_timeOut {timeout blocks : Option Value}
    (run : Run (timeOut pending timeout blocks) start labels ending stop) :
    Reported pending.txHash timeout blocks stop labels ending ∧ stop = start := by
  rcases Run.emit_bind_inv run with ⟨_, noteRun, rfl⟩
  rcases Run.emit_bind_inv noteRun with ⟨_, failRun, rfl⟩
  rcases Run.done_inv failRun with ⟨rfl, rfl, rfl⟩
  exact ⟨.intro rfl, rfl⟩

/-- Nothing is seen of a limit, and of no timeout that could be taken for one. -/
structure Calm (labels : List Label) : Prop where
  untimed : ∀ call ∈ calls labels, ¬call.IsOwnTimeout
  lasting : ∀ now known, .told now (.progress known) ∈ labels → known.state ≠ .timedOut

namespace Calm

theorem nil : Calm [] :=
  ⟨by simp, by simp⟩

theorem append (first : Calm before) (second : Calm after) : Calm (before ++ after) where
  untimed := by
    rw [calls_append]
    exact List.forall_mem_append.mpr ⟨first.untimed, second.untimed⟩
  lasting now known member :=
    (List.mem_append.mp member).elim (first.lasting now known) (second.lasting now known)

theorem published {now : Rat} {known : PendingTransaction} (lasting : known.state ≠ .timedOut) :
    Calm [.told now (.progress known)] where
  untimed := by simp
  lasting := by
    intro moment other member
    cases List.mem_singleton.mp member
    exact lasting

theorem noted {now : Rat} {record : LogRecord} : Calm [.told now (.note record)] where
  untimed := by simp
  lasting _ _ member := nomatch List.mem_singleton.mp member

theorem within (calm : Calm labels) (context : Dict) :
    Calm (labels.map (Label.within context)) where
  untimed := by
    rw [calls_map_within]
    exact calm.untimed
  lasting := by
    intro now known member
    rcases List.mem_map.mp member with ⟨label, inLabels, same⟩
    cases label with
    | told moment event =>
        cases event with
        | note record => cases same
        | progress other =>
            cases same
            exact calm.lasting _ _ inLabels
    | _ => cases same

end Calm

/-- What comes just before a report, and which limit the report names: the limit of time has come,
or a timeout came before it, or too many blocks have passed. -/
inductive Cause (timeout : Binary64) (deadline : Option Rat) (stop : Rat) :
    List Label → (limit blocks : Option Value) → Prop where
  | due {limit : Rat} (due : limit ∈ deadline) (reached : limit ≤ stop) :
      Cause timeout deadline stop [] (some (.float timeout)) none
  | early {label : Label} {call : NodeCall} (asks : label.call? = some call)
      (own : call.IsOwnTimeout) (ahead : ∀ limit ∈ deadline, stop < limit) :
      Cause timeout deadline stop [label] (some (.float timeout)) none
  | blocks {blocks : Value} : Cause timeout deadline stop [] none (some blocks)

theorem Cause.within {last : List Label} {limit blocks : Option Value}
    (cause : Cause timeout deadline stop last limit blocks) (context : Dict) :
    Cause timeout deadline stop (last.map (Label.within context)) limit blocks := by
  cases cause with
  | due due reached => exact .due due reached
  | @early label call asks own ahead =>
      have sameCall : (label.within context).call? = label.call? := by cases label <;> rfl
      exact .early (sameCall.trans asks) own ahead
  | blocks => exact .blocks

/-- What a run of a step shows of the limits of a wait: nothing, or in the end a report. -/
inductive Timed (txHash : Value) (timeout : Binary64) (deadline : Option Rat) :
    List Label → Ending α → Rat → Prop where
  | calm {labels : List Label} {ending : Ending α} {stop : Rat} (calm : Calm labels) :
      Timed txHash timeout deadline labels ending stop
  | reported {before last report : List Label} {limit blocks : Option Value} {ending : Ending α}
      {stop : Rat} (calm : Calm before) (cause : Cause timeout deadline stop last limit blocks)
      (reported : Reported txHash limit blocks stop report ending) :
      Timed txHash timeout deadline (before ++ (last ++ report)) ending stop

namespace Timed

theorem prepend (calm : Calm before) (timed : Timed txHash timeout deadline after ending stop) :
    Timed txHash timeout deadline (before ++ after) ending stop := by
  cases timed with
  | calm rest => exact .calm (calm.append rest)
  | reported rest cause reported =>
      rw [← List.append_assoc]
      exact .reported (calm.append rest) cause reported

theorem calm_of_result {result : α}
    (timed : Timed txHash timeout deadline labels (.ended (.ok result)) stop) : Calm labels := by
  cases timed with
  | calm calm => exact calm
  | reported calm cause reported => cases reported

theorem abandon {early : Ending α} {ending : Ending β}
    (timed : Timed txHash timeout deadline labels early stop) (abandons : Abandons early ending) :
    Timed txHash timeout deadline labels ending stop := by
  cases timed with
  | calm calm => exact .calm calm
  | reported calm cause reported =>
      cases reported with
      | intro expired =>
          cases abandons
          exact .reported calm cause (.intro expired)

theorem within (timed : Timed txHash timeout deadline labels ending stop) (context : Dict) :
    Timed txHash timeout deadline (labels.map (Label.within context)) ending stop := by
  cases timed with
  | calm calm => exact .calm (calm.within context)
  | reported calm cause reported =>
      rw [List.map_append, List.map_append]
      refine .reported (calm.within context) (cause.within context) ?_
      cases reported with
      | intro expired => exact .intro expired

end Timed

/-- Every run of a step shows of the limits what runs of waits may. -/
def Paced (txHash : Value) (timeout : Binary64) (deadline : Option Rat) (step : Activity α) :
    Prop :=
  ∀ start labels ending stop, Run step start labels ending stop →
    Timed txHash timeout deadline labels ending stop

namespace Paced

/-- Only the last step reports that a limit has passed. -/
theorem bind_of_run {step : Activity α} {next : α → Activity β}
    (first : Paced txHash timeout deadline step)
    (second : ∀ value start labels stop, Run step start labels (.ended (.ok value)) stop →
      Paced txHash timeout deadline (next value)) :
    Paced txHash timeout deadline (step >>= next) := by
  intro start labels ending stop run
  rcases Run.bind_inv run with ⟨value, before, middle, after, stepRun, nextRun, rfl⟩ |
    ⟨early, stepRun, abandons⟩
  · have calm := (first _ _ _ _ stepRun).calm_of_result
    exact .prepend calm (second value _ _ _ stepRun _ _ _ _ nextRun)
  · exact (first _ _ _ _ stepRun).abandon abandons

theorem bind {step : Activity α} {next : α → Activity β}
    (first : Paced txHash timeout deadline step)
    (second : ∀ value, Paced txHash timeout deadline (next value)) :
    Paced txHash timeout deadline (step >>= next) :=
  bind_of_run first fun value _ _ _ _ => second value

theorem done (outcome : Outcome α) : Paced txHash timeout deadline (Activity.done outcome) := by
  intro start labels ending stop run
  rcases Run.done_inv run with ⟨rfl, _⟩
  exact .calm .nil

theorem publish {known : PendingTransaction} (lasting : known.state ≠ .timedOut) :
    Paced txHash timeout deadline (Activity.publish known) := by
  intro start labels ending stop run
  rcases Run.tell_inv run with ⟨_, doneRun, rfl⟩
  rcases Run.done_inv doneRun with ⟨rfl, _⟩
  exact .calm (.published lasting)

theorem note {severity : Severity} {logger message : String} {fields : Dict} :
    Paced txHash timeout deadline (Activity.note severity logger message fields) := by
  intro start labels ending stop run
  rcases Run.tell_inv run with ⟨_, doneRun, rfl⟩
  rcases Run.done_inv doneRun with ⟨rfl, _⟩
  exact .calm .noted

/-- A step that asks for no receipt and no head and publishes nothing says nothing of limits. -/
theorem of_callsOnly {allowed : String → Prop} {step : Activity α}
    (only : step.CallsOnly allowed)
    (others : ∀ method, allowed method →
      method ≠ "eth_getTransactionReceipt" ∧ method ≠ "eth_blockNumber")
    (unpublished : ∀ start labels ending stop, Run step start labels ending stop →
      progress labels = []) : Paced txHash timeout deadline step := by
  intro start labels ending stop run
  refine .calm ⟨fun call member own => ?_, fun now known member => ?_⟩
  · rcases others _ (only.method_of_mem_calls run call member) with ⟨noReceipt, noHead⟩
    exact own.1.elim noReceipt noHead
  · have shown : known ∈ progress labels := List.mem_filterMap.mpr ⟨_, member, rfl⟩
    rw [unpublished _ _ _ _ run] at shown
    cases shown

end Paced

section Questions

variable {method : String} {params : List Value} {read : Value → Outcome α}

/-- An answer that cannot be read is no timeout. -/
def NoTimeout (read : Value → Outcome α) : Prop :=
  ∀ answer text, read answer ≠ .error (.condition .timeout text)

theorem noTimeout_toInt : NoTimeout Quantity.toInt := by
  intro answer text failed
  unfold Quantity.toInt at failed
  split at failed
  · cases failed
  · split at failed <;> cases failed
  · cases failed

theorem calm_unanswered {query : Query} {now : Rat} : Calm [.unanswered query now] where
  untimed call member := by
    rintro ⟨_, text, answered⟩
    cases query with
    | call method params =>
        cases List.mem_singleton.mp member
        cases answered
    | _ => cases member
  lasting _ _ member := nomatch List.mem_singleton.mp member

theorem calm_asked {now moment : Rat} {reply : Reply (Outcome Value)}
    (untimed : ∀ text, reply ≠ .answer (.error (.condition .timeout text))) :
    Calm [.asked (.call method params) now moment reply] where
  untimed call member := by
    rintro ⟨_, text, answered⟩
    rcases reply with outcome | _ | _
    · cases List.mem_singleton.mp member
      cases answered
      exact untimed text rfl
    · cases List.mem_singleton.mp member
      cases answered
    · cases List.mem_singleton.mp member
      cases answered
  lasting _ _ member := nomatch List.mem_singleton.mp member

/-- A question to a node that ends at its deadline, or with a timeout of its own, is the last one of
a wait. -/
theorem paced_bounded_question (limited : bound.timeout = some timeout)
    (polls : method = "eth_getTransactionReceipt" ∨ method = "eth_blockNumber")
    (readable : NoTimeout read) :
    Paced pending.txHash timeout bound.deadline
      (bounded pending bound (question method params read)) := by
  intro start labels ending stop run
  rcases Run.andThen_inv run with ⟨first, before, middle, after, stepRun, follows, rfl⟩
  have passed : ∀ outcome, first = .ended outcome →
      (∀ text, outcome ≠ .error (.condition .timeout text)) → after = [] := by
    rintro outcome rfl untimed
    cases follows with
    | ended next =>
        cases outcome with
        | ok value => exact (Run.done_inv next).1
        | error failure =>
            dsimp only at next
            split at next
            · exact absurd rfl (untimed _)
            · exact (Run.done_inv next).1
  have expired : ∀ text, first = .ended (.error (.condition .timeout text)) →
      Reported pending.txHash (some (.float timeout)) none stop after ending ∧ stop = middle := by
    rintro text rfl
    cases follows with
    | ended next =>
        rw [limited] at next
        exact reported_timeOut next
  rw [question_bounded] at stepRun
  generalize bound.deadline = deadline at stepRun ⊢
  cases stepRun with
  | late reached doneRun =>
      rcases Run.done_inv doneRun with ⟨rfl, same, rfl⟩
      rcases expired _ same with ⟨reported, rfl⟩
      exact .reported .nil (.due rfl reached) reported
  | stuck endless =>
      cases follows
      exact .calm calm_unanswered
  | @ask _ _ _ reply _ moment _ _ _ ahead closes doneRun =>
      rcases Run.done_inv doneRun with ⟨rfl, same, rfl⟩
      cases closes with
      | @answered outcome _ asked duration inTime =>
          cases outcome with
          | ok answer =>
              rw [passed _ same (readable answer)]
              exact .calm (calm_asked (by simp))
          | error failure =>
              by_cases timedOut : ∃ text, failure = .condition .timeout text
              · rcases timedOut with ⟨text, rfl⟩
                rcases expired text same with ⟨reported, rfl⟩
                exact .reported .nil (.early rfl ⟨polls, text, rfl⟩ inTime) reported
              · have other : ∀ text, failure ≠ .condition .timeout text :=
                  fun text isTimeout => timedOut ⟨text, isTimeout⟩
                rw [passed _ same (by simpa [replied] using other)]
                exact .calm (calm_asked (by simpa using other))
      | expired due =>
          subst due
          rcases expired _ same with ⟨reported, rfl⟩
          exact .reported (calm_asked (by simp)) (.due rfl Rat.le_refl) reported
      | cancelled asked inTime =>
          rw [passed _ same (by simp [replied, Failure.cancelled])]
          exact .calm (calm_asked (by simp))

end Questions

theorem paced_revert {block : Int} :
    Paced txHash timeout deadline (pipeline.onNode.revert pending block bound : Activity α) := by
  rw [revert_eq]
  have replays : (pipeline.onNode.reasonInTime pending block bound).CallsOnly IsReplay := by
    refine (callsOnly_replayReason.bounded bound.deadline).andThen fun outcome => ?_
    split
    · trivial
    · dsimp only
      split <;> trivial
  have others : ∀ method, IsReplay method →
      method ≠ "eth_getTransactionReceipt" ∧ method ≠ "eth_blockNumber" := by
    rintro method (rfl | rfl) <;> decide
  refine Paced.bind (.publish nofun) fun _ => ?_
  refine Paced.bind (.of_callsOnly replays others fun _ _ _ _ => progress_reasonInTime)
    fun reason => ?_
  exact Paced.bind (.publish nofun) fun _ => Paced.bind .note fun _ => .done _

theorem paced_withReceipt {receipt : Value} :
    Paced txHash timeout deadline (pipeline.onNode.withReceipt pending receipt bound) := by
  unfold withReceipt
  refine Paced.bind (.done _) fun number => Paced.bind (.done _) fun block => ?_
  refine Paced.bind ?_ fun _ => Paced.bind (.publish nofun) fun _ => ?_
  · rw [noteMined]
    split
    · exact .note
    · exact .done _
  · refine Paced.bind (.done _) fun word => Paced.bind (.done _) fun status => ?_
    split
    · exact paced_revert
    · exact .done _

theorem progress_sleep {seconds : Rat} {ending : Ending Unit}
    (run : Run (Activity.sleep seconds) start labels ending stop) : progress labels = [] := by
  cases run with
  | stuck endless => rfl
  | @ask _ _ _ reply _ _ _ _ _ ahead closes doneRun =>
      cases reply <;>
        (cases doneRun
         rfl)

theorem paced_sleep {seconds : Rat} :
    Paced txHash timeout deadline (Activity.sleep seconds) :=
  .of_callsOnly (silent_sleep seconds) (fun _ => False.elim) fun _ _ _ _ => progress_sleep

section Limited

variable (limited : bound.timeout = some timeout)

include limited

theorem paced_headNumber : Paced pending.txHash timeout bound.deadline
    (bounded pending bound pipeline.onNode.headNumber) :=
  paced_bounded_question limited (Or.inr rfl) noTimeout_toInt

theorem paced_checkBlocks {firstHead : Option Int} :
    Paced pending.txHash timeout bound.deadline
      (pipeline.onNode.checkBlocks pending bound firstHead) := by
  rw [checkBlocks]
  split
  · exact .done _
  · refine Paced.bind (paced_headNumber limited) fun head => ?_
    split
    · exact .done _
    · split
      · intro start labels ending stop run
        exact .reported .nil .blocks (reported_timeOut run).1
      · exact .done _

theorem paced_poll {firstHead : Option Int} :
    Paced pending.txHash timeout bound.deadline
      (pipeline.onNode.poll bound pending firstHead) := by
  have asks : Paced pending.txHash timeout bound.deadline
      (bounded pending bound (Transport.direct.send "eth_getTransactionReceipt"
        [pending.txHash])) := by
    rw [send_eq_question]
    exact paced_bounded_question limited (Or.inl rfl) (by simp [NoTimeout])
  refine Paced.bind asks fun receipt => ?_
  split
  · refine Paced.bind_of_run ?_ fun later _ _ _ run => ?_
    · have lasting : pending.unmined.state ≠ .timedOut := by simp [unmined]
      rw [withoutReceipt]
      split
      · exact Paced.bind .note fun _ => Paced.bind (.publish lasting) fun _ => .done _
      · exact Paced.bind (.publish lasting) fun _ => .done _
    · cases withoutReceipt_inv run
      have checks : Paced pending.unmined.txHash timeout bound.deadline
          (pipeline.onNode.checkBlocks pending.unmined bound firstHead) :=
        paced_checkBlocks limited
      exact Paced.bind checks fun _ => .done _
  · refine Paced.bind_of_run paced_withReceipt fun mined _ _ _ run => ?_
    rcases withReceipt_inv run with ⟨entries, block, _, _, _, same⟩ | ⟨noResult, _⟩
    · cases same
      have asksHead : Paced (pending.minedAt block entries).txHash timeout bound.deadline
          (bounded (pending.minedAt block entries) bound pipeline.onNode.headNumber) :=
        paced_headNumber limited
      refine Paced.bind asksHead fun head => Paced.bind (.done _) fun reached => ?_
      split
      · exact Paced.bind (.publish (by simp)) fun _ => Paced.bind .note fun _ => .done _
      · exact .done _
    · exact absurd rfl (noResult mined)

theorem paced_pause : Paced pending.txHash timeout bound.deadline (pause pending bound) := by
  rw [pause]
  split
  · exact paced_sleep
  · next limit due =>
      intro start labels ending stop run
      cases run with
      | clock run =>
          change Run (ite _ _ _) _ _ _ _ at run
          split at run
          · next passed =>
              rw [limited] at run
              rcases reported_timeOut run with ⟨reported, rfl⟩
              rw [due]
              exact .reported .nil (.due rfl (by grind)) reported
          · exact paced_sleep _ _ _ _ run

theorem paced_watch {rounds : Nat} {firstHead : Option Int} :
    Paced pending.txHash timeout bound.deadline
      (pipeline.onNode.watch bound rounds pending firstHead) := by
  induction rounds generalizing pending firstHead with
  | zero =>
      intro start labels ending stop run
      cases run
      exact .calm .nil
  | succ rounds ih =>
      rw [watch]
      refine Paced.bind_of_run (paced_poll limited) fun shown _ _ _ run => ?_
      cases shown with
      | confirmed later => exact .done _
      | unconfirmed later first =>
          rw [← txHash_eq (unmined_eq_of_polled (poll_inv run))]
          exact Paced.bind (paced_pause limited) fun _ => ih

end Limited

/-- A wait reports that its limit of time has passed: it has set the state at that moment and ends
with the fault that names the limit. -/
structure ReportsTimeout (pending : PendingTransaction) (timeout : Binary64) (labels : List Label)
    (ending : Ending PendingTransaction) (stop : Rat) : Prop where
  raised : ending =
    .ended (.error (.fault (.confirmationTimeout pending.txHash (some (.float timeout)))))
  known : ∃ known : PendingTransaction,
    known.state = .timedOut ∧ .told stop (.progress known) ∈ labels

/-- A wait reports that too many blocks have passed. -/
def ReportsBlocks (pending : PendingTransaction) (ending : Ending PendingTransaction) : Prop :=
  ∃ blocks, ending =
    .ended (.error (.fault (.confirmationTimeout pending.txHash none (some blocks))))

theorem confirmationTimeout_ne {limit : Option Value} {blocks : Value} :
    Fault.confirmationTimeout txHash none (some blocks) ≠
      Fault.confirmationTimeout txHash limit := by
  intro same
  have sameKeys := congrArg (·.details.map Prod.fst) same
  cases limit with
  | none => exact absurd (show ["blocks"] = [] from sameKeys) (by decide)
  | some limit => exact absurd (show ["blocks"] = ["timeout"] from sameKeys) (by decide)

theorem exists_told_of_mem_progress {known : PendingTransaction}
    (member : known ∈ progress labels) : ∃ now, .told now (.progress known) ∈ labels := by
  rcases List.mem_filterMap.mp member with ⟨label, inLabels, shown⟩
  cases label with
  | told now event =>
      cases event with
      | note record => cases shown
      | progress other =>
          cases shown
          exact ⟨now, inLabels⟩
  | _ => cases shown

namespace Timed

variable {ending : Ending PendingTransaction}
  (timed : Timed pending.txHash timeout deadline labels ending stop)

include timed

theorem early_iff :
    ReportsTimeout pending timeout labels ending stop ∧ (∀ limit ∈ deadline, stop < limit) ↔
      ∃ call ∈ calls labels, call.IsOwnTimeout := by
  cases timed with
  | calm calm =>
      refine iff_of_false ?_ ?_
      · rintro ⟨⟨_, known, expired, member⟩, _⟩
        exact calm.lasting _ _ member expired
      · rintro ⟨call, member, own⟩
        exact calm.untimed call member own
  | @reported before last report limit blocks _ _ calm cause reported =>
      cases reported with
      | @intro known record expired =>
          -- What stands before the report shows no timeout but perhaps the last of it.
          have untimed : (¬∃ call ∈ calls last, call.IsOwnTimeout) → ¬∃ call ∈ calls (before ++
              (last ++ [.told stop (.progress known), .told stop (.note record)])),
              call.IsOwnTimeout := by
            rintro calmLast ⟨call, member, own⟩
            have split : call ∈ calls before ∨ call ∈ calls last := by simpa using member
            exact split.elim (calm.untimed call · own) fun inLast => calmLast ⟨call, inLast, own⟩
          cases cause with
          | due due reached =>
              refine iff_of_false ?_ (untimed (by simp))
              rintro ⟨_, ahead⟩
              have sooner := ahead _ due
              grind
          | @early label call asks own ahead =>
              have asked : call ∈ calls (before ++
                  ([label] ++ [.told stop (.progress known), .told stop (.note record)])) :=
                List.mem_filterMap.mpr ⟨label, by simp, asks⟩
              exact iff_of_true ⟨⟨rfl, known, expired, by simp⟩, ahead⟩ ⟨call, asked, own⟩
          | blocks =>
              refine iff_of_false ?_ (untimed (by simp))
              rintro ⟨⟨raised, _⟩, _⟩
              simp [confirmationTimeout_ne] at raised

/-- The state is set to expired by a report only. -/
theorem reports {now : Rat} {known : PendingTransaction}
    (told : .told now (.progress known) ∈ labels) (expired : known.state = .timedOut) :
    now = stop ∧ (ReportsTimeout pending timeout labels ending stop ∨
      ReportsBlocks pending ending) := by
  cases timed with
  | calm calm => exact absurd expired (calm.lasting _ _ told)
  | reported calm cause reported =>
      rcases List.mem_append.mp told with inBefore | inRest
      · exact absurd expired (calm.lasting _ _ inBefore)
      · cases reported with
        | @intro final record _ =>
            rcases List.mem_append.mp inRest with inLast | inReport
            · cases cause with
              | early asks own ahead =>
                  cases List.mem_singleton.mp inLast
                  cases asks
              | _ => cases inLast
            · have same : now = stop ∧ known = final := by simpa using inReport
              rcases same with ⟨rfl, rfl⟩
              refine ⟨rfl, ?_⟩
              cases cause with
              | due due reached => exact Or.inl ⟨rfl, known, expired, told⟩
              | early asks own ahead => exact Or.inl ⟨rfl, known, expired, told⟩
              | blocks => exact Or.inr ⟨_, rfl⟩

end Timed

theorem timed_wait {rounds : Nat} {ending : Ending PendingTransaction}
    (limited : pending.policy.timeout = some timeout)
    (run : Run (pipeline.onNode.wait pending rounds) start labels ending stop) :
    Timed pending.txHash timeout (WaitBound.start (some timeout) start).deadline labels ending
      stop := by
  rcases Run.within_map_inv run with ⟨own, waiting, rfl⟩
  cases waiting with
  | clock watching =>
      rw [limited] at watching
      have timed := paced_watch rfl _ _ _ _ watching
      exact timed.within _

/-- A wait reports that its limit of time has passed before it has exactly if the transport met a
question for a receipt or for the head with a timeout of its own. Whenever a wait sets the state to
expired, it reports the limit of time at that moment, or that too many blocks have passed; and
whenever it ends with a fault of this kind it has done so, unless it only passes the fault on. -/
theorem expires_early_iff {rounds : Nat} {ending : Ending PendingTransaction}
    (limited : pending.policy.timeout = some timeout)
    (run : Run (pipeline.onNode.wait pending rounds) start labels ending stop) :
    (ReportsTimeout pending timeout labels ending stop ∧
        (∀ limit ∈ (WaitBound.start (some timeout) start).deadline, stop < limit) ↔
      ∃ call ∈ calls labels, call.IsOwnTimeout) ∧
    (∀ now known, .told now (.progress known) ∈ labels → known.state = .timedOut →
      now = stop ∧ (ReportsTimeout pending timeout labels ending stop ∨
        ReportsBlocks pending ending)) ∧
    ∀ fault, ending = .ended (.error (.fault fault)) → fault.kind = .confirmationTimeout →
      ReportsTimeout pending timeout labels ending stop ∨ ReportsBlocks pending ending ∨
        pipeline.PassesOn (calls labels) (.fault fault) := by
  have timed := timed_wait limited run
  refine ⟨timed.early_iff, fun now known told expired => timed.reports told expired, ?_⟩
  intro fault raised kind
  have upholds : Upholds Update (pipeline.PassesOn (calls labels)) Returns
      (pipeline.onNode.wait pending rounds) pending.reopened :=
    upholds_wait fun data failure failed => Or.inr ⟨data, failed⟩
  rcases upholds.of_run run fun call member failure refused => Or.inl ⟨call, member, refused⟩ with
    ⟨_, ends⟩
  rcases ends _ raised with passesOn | agrees
  · exact Or.inr (Or.inr passesOn)
  · have expired := agrees.1 kind
    rcases knownAfter_eq_or_mem pending.reopened labels with same | shown
    · rw [same] at expired
      cases expired
    · rcases exists_told_of_mem_progress shown with ⟨now, told⟩
      exact (timed.reports told expired).2.imp_right Or.inl

section Examples

/-- A transaction that is waited for for five seconds. -/
def urgent : PendingTransaction :=
  { patient with policy := { patient.policy with timeout := some (.ofInt 5) } }

/-- The transport meets the first question with a timeout, at once. -/
def ownTimeout : NodeCall :=
  ⟨"eth_getTransactionReceipt", [urgent.txHash], some (Outcome.condition .timeout)⟩

theorem run_ownTimeout : ∃ labels ending, Run (plain.onNode.wait urgent 1) 0 labels ending 0 ∧
    calls labels = [ownTimeout] := by
  generalize started : WaitBound.start urgent.policy.timeout 0 = bound
  have limited : bound.timeout = some (.ofInt 5) := by rw [← started]; rfl
  have ahead : ∀ limit ∈ bound.deadline, 0 < limit := by rw [← started]; decide +kernel
  let asked : Label := .asked (.call "eth_getTransactionReceipt" [urgent.txHash]) 0 0
    (.answer (Outcome.condition .timeout))
  have asks : Run ((Transport.direct.send "eth_getTransactionReceipt" [urgent.txHash]).bounded
      bound.deadline) 0 [asked] (.ended (Outcome.condition .timeout)) 0 := by
    rw [send_eq_question, question_bounded]
    exact .ask ahead (.answered Rat.le_refl (by simp [Query.duration?]) ahead) .done
  obtain ⟨told, failure, expires, noCalls⟩ : ∃ told failure,
      Run (timeOut urgent (some (.float (.ofInt 5))) : Activity Value) 0 told
        (.ended (.error failure)) 0 ∧ calls told = [] :=
    ⟨_, _, .tell (.tell .done), rfl⟩
  have reports : Run (bounded urgent bound
      (Transport.direct.send "eth_getTransactionReceipt" [urgent.txHash])) 0 ([asked] ++ told)
      (.ended (.error failure)) 0 := by
    refine Run.andThen asks ?_
    rw [limited]
    exact expires
  have watches : Run (plain.onNode.watch bound 1 urgent none) 0 ([asked] ++ told ++ [] ++ [])
      (.ended (.error failure)) 0 := Run.andThen (Run.andThen reports .done) .done
  rw [← started] at watches
  refine ⟨_, _, .clock (watches.within [("tx_hash", urgent.txHash)]), ?_⟩
  rw [calls_map_within, List.append_nil, List.append_nil]
  exact congrArg (ownTimeout :: ·) noCalls

theorem own_ownTimeout : ownTimeout.IsOwnTimeout :=
  ⟨Or.inl rfl, "", rfl⟩

theorem expires_early_ownTimeout : ∃ labels ending,
    Run (plain.onNode.wait urgent 1) 0 labels ending 0 ∧
      urgent.policy.timeout = some (.ofInt 5) ∧
        ReportsTimeout urgent (.ofInt 5) labels ending 0 ∧
          ∀ limit ∈ (WaitBound.start (some (.ofInt 5)) 0).deadline, 0 < limit := by
  rcases run_ownTimeout with ⟨labels, ending, run, asked⟩
  have own : ∃ call ∈ calls labels, call.IsOwnTimeout := by simp [asked, own_ownTimeout]
  exact ⟨labels, ending, run, rfl, (expires_early_iff rfl run).1.mpr own⟩

/-- A wait may report that its limit of time has passed before it has. -/
theorem not_reached_of_ownTimeout : ¬∀ (pipeline : Pipeline) (pending : PendingTransaction)
    (timeout : Binary64) (rounds : Nat) (start stop : Rat) (labels : List Label)
    (ending : Ending PendingTransaction), pending.policy.timeout = some timeout →
      Run (pipeline.onNode.wait pending rounds) start labels ending stop →
        ReportsTimeout pending timeout labels ending stop →
          ∃ limit ∈ (WaitBound.start (some timeout) start).deadline, limit ≤ stop := by
  intro reaches
  rcases run_ownTimeout with ⟨labels, ending, run, asked⟩
  have own : ∃ call ∈ calls labels, call.IsOwnTimeout := by simp [asked, own_ownTimeout]
  rcases (timed_wait rfl run).early_iff.mpr own with ⟨reports, ahead⟩
  rcases reaches plain urgent (.ofInt 5) 1 0 0 labels ending rfl run reports with
    ⟨limit, due, reached⟩
  have sooner := ahead limit due
  grind

end Examples

end Pipeline

end ContractClient
