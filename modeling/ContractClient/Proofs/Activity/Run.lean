import ContractClient.World

/-!
# Runs of activities

`Activity.Run` says how an activity may go on from a moment: what can be seen of it, how it ends and
when. Any reply may come to a question at any time, before the deadline of the question; at the
deadline the question expires. An activity that runs in a world does so (`Activity.run_trace`).

A run of one activity followed by another one consists of a run of the first and a run of the second
(`Activity.Run.andThen_inv`, `Activity.Run.bind_inv`), unless the first one does not get to its end.
-/

namespace ContractClient

/-- Something that can be seen of an activity. -/
inductive Label where
  | told (now : Rat) (event : Event)
  | asked (query : Query) (start stop : Rat) (reply : Reply query.Answer)
  /-- A question that is never answered. -/
  | unanswered (query : Query) (start : Rat)

/-- A label shows something that is told. -/
def Label.IsTold (label : Label) : Prop :=
  ∃ now event, label = .told now event

theorem Label.not_isTold_asked {query : Query} {start stop : Rat} {reply : Reply query.Answer} :
    ¬(Label.asked query start stop reply).IsTold := by
  rintro ⟨_, _, ⟨⟩⟩

/-- A label as it is seen within a context. -/
def Label.within (context : Dict) : Label → Label
  | told now event => told now (Activity.Event.within context event)
  | label => label

/-- The seconds that a question takes if that does not depend on the reply. -/
def Query.duration? : Query → Option Rat
  | sleep seconds => some (max seconds 0)
  | _ => none

/-- How and when a question may end that is asked before its deadline. -/
inductive Closes (now : Rat) (query : Query) (deadline : Option Rat) :
    Reply query.Answer → Rat → Prop where
  | answered {answer : query.Answer} {moment : Rat} (asked : now ≤ moment)
      (duration : ∀ seconds ∈ query.duration?, moment = now + seconds)
      (inTime : ∀ limit ∈ deadline, moment < limit) :
      Closes now query deadline (.answer answer) moment
  | expired {limit : Rat} (due : deadline = some limit) : Closes now query deadline .expired limit
  | cancelled {moment : Rat} (asked : now ≤ moment)
      (inTime : ∀ limit ∈ deadline, moment ≤ limit) :
      Closes now query deadline .cancelled moment

theorem Closes.start_le {now moment : Rat} {query : Query} {deadline : Option Rat}
    {reply : Reply query.Answer} (closes : Closes now query deadline reply moment)
    (early : ∀ limit ∈ deadline, now < limit) : now ≤ moment := by
  cases closes with
  | answered asked _ _ => exact asked
  | expired due => exact Rat.le_of_lt (early moment due)
  | cancelled asked _ => exact asked

/-- A question may be answered at once. -/
theorem Closes.atOnce {now : Rat} {query : Query} {answer : query.Answer}
    (untimed : query.duration? = none) : Closes now query none (.answer answer) now :=
  .answered Rat.le_refl (by simp [untimed]) (by simp)

/-- How an activity ends whose result is changed. -/
def Ending.map {α β : Type} (change : α → β) : Ending α → Ending β
  | ended outcome => .ended (outcome.map change)
  | stuck => .stuck
  | unfinished => .unfinished

/-- An activity has not come to a result. -/
def Ending.NoResult {α : Type} (ending : Ending α) : Prop :=
  ∀ result, ending ≠ .ended (.ok result)

theorem Ending.noResult_error {α : Type} {failure : Failure} :
    (Ending.ended (.error failure) : Ending α).NoResult := by
  intro result same
  cases same

namespace Activity

variable {α β γ : Type}

theorem andThen_assoc {activity : Activity α} {next : Outcome α → Activity β}
    {last : Outcome β → Activity γ} :
    (activity.andThen next).andThen last =
      activity.andThen fun outcome => (next outcome).andThen last := by
  induction activity with
  | done outcome => rfl
  | suspended => rfl
  | tell event rest ih => exact congrArg (tell event) ih
  | clock resume ih => exact congrArg clock (funext ih)
  | ask query deadline resume ih => exact congrArg (ask query deadline) (funext ih)

theorem bind_pure_self {activity : Activity α} : (activity >>= pure) = activity := by
  induction activity with
  | done outcome => cases outcome <;> rfl
  | suspended => rfl
  | tell event rest ih => exact congrArg (tell event) ih
  | clock resume ih => exact congrArg clock (funext ih)
  | ask query deadline resume ih => exact congrArg (ask query deadline) (funext ih)

instance : LawfulMonad Activity :=
  LawfulMonad.mk' Activity
    (fun _ => bind_pure_self)
    (fun _ _ => rfl)
    (fun activity _ _ => by
      refine andThen_assoc.trans (congrArg activity.andThen (funext fun outcome => ?_))
      cases outcome <;> rfl)

theorem liftM_bind_bind {first : Outcome α} {second : α → Outcome β} {next : β → Activity γ} :
    (liftM (first >>= second) >>= next : Activity γ) =
      liftM first >>= fun value => liftM (second value) >>= next := by
  cases first <;> rfl

/-- An activity may go on from a moment and end at another one. -/
inductive Run : Activity α → Rat → List Label → Ending α → Rat → Prop where
  | done {outcome : Outcome α} {now : Rat} : Run (done outcome) now [] (.ended outcome) now
  | suspended {now : Rat} : Run suspended now [] .unfinished now
  | tell {event : Event} {rest : Activity α} {now stop : Rat} {labels : List Label}
      {ending : Ending α} (next : Run rest now labels ending stop) :
      Run (tell event rest) now (.told now event :: labels) ending stop
  | clock {resume : Rat → Activity α} {now stop : Rat} {labels : List Label} {ending : Ending α}
      (next : Run (resume now) now labels ending stop) : Run (clock resume) now labels ending stop
  /-- A question whose deadline has come is not asked any more. -/
  | late {query : Query} {limit : Rat} {resume : Reply query.Answer → Activity α} {now stop : Rat}
      {labels : List Label} {ending : Ending α} (passed : limit ≤ now)
      (next : Run (resume .expired) now labels ending stop) :
      Run (ask query (some limit) resume) now labels ending stop
  | ask {query : Query} {deadline : Option Rat} {resume : Reply query.Answer → Activity α}
      {reply : Reply query.Answer} {now moment stop : Rat} {labels : List Label}
      {ending : Ending α} (early : ∀ limit ∈ deadline, now < limit)
      (closes : Closes now query deadline reply moment)
      (next : Run (resume reply) moment labels ending stop) :
      Run (ask query deadline resume) now (.asked query now moment reply :: labels) ending stop
  | stuck {query : Query} {resume : Reply query.Answer → Activity α} {now : Rat}
      (endless : query.duration? = none) :
      Run (ask query none resume) now [.unanswered query now] .stuck now

/-- What follows the end of an activity: nothing, if the activity has no outcome. -/
inductive Follows (next : Outcome α → Activity β) :
    Ending α → Rat → List Label → Ending β → Rat → Prop where
  | ended {outcome : Outcome α} {now stop : Rat} {labels : List Label} {ending : Ending β}
      (run : Run (next outcome) now labels ending stop) :
      Follows next (.ended outcome) now labels ending stop
  | stuck {now : Rat} : Follows next .stuck now [] .stuck now
  | unfinished {now : Rat} : Follows next .unfinished now [] .unfinished now

/-- An activity without a result leaves the one that was to go on with the result without one. -/
inductive Abandons : Ending α → Ending β → Prop where
  | failed {failure : Failure} : Abandons (.ended (.error failure)) (.ended (.error failure))
  | stuck : Abandons .stuck .stuck
  | unfinished : Abandons .unfinished .unfinished

section Abandoned

variable {early : Ending α} {ending : Ending β}

theorem Abandons.noResult (abandons : Abandons early ending) : ending.NoResult := by
  intro result same
  cases abandons <;> cases same

theorem Abandons.noResult_early (abandons : Abandons early ending) : early.NoResult := by
  intro result same
  cases abandons <;> cases same

theorem Abandons.ne_unfinished (abandons : Abandons early ending) (known : early ≠ .unfinished) :
    ending ≠ .unfinished := by
  rintro rfl
  cases abandons
  exact known rfl

theorem Abandons.ne_stuck (abandons : Abandons early ending) (answered : ending ≠ .stuck) :
    early ≠ .stuck := by
  rintro rfl
  cases abandons
  exact answered rfl

end Abandoned

namespace Run

variable {activity : Activity α} {start stop : Rat} {labels : List Label}

theorem andThen_inv {next : Outcome α → Activity β} {ending : Ending β}
    (run : Run (activity.andThen next) start labels ending stop) :
    ∃ first before middle after, Run activity start before first middle ∧
      Follows next first middle after ending stop ∧ labels = before ++ after := by
  induction activity generalizing start labels with
  | done outcome => exact ⟨_, [], start, labels, .done, .ended run, rfl⟩
  | suspended =>
      cases run
      exact ⟨_, [], _, [], .suspended, .unfinished, rfl⟩
  | tell event rest ih =>
      cases run with
      | tell following =>
          rcases ih following with ⟨first, before, middle, after, run, follows, rfl⟩
          exact ⟨first, _, middle, after, .tell run, follows, rfl⟩
  | clock resume ih =>
      cases run with
      | clock following =>
          rcases ih start following with ⟨first, before, middle, after, run, follows, rfl⟩
          exact ⟨first, before, middle, after, .clock run, follows, rfl⟩
  | ask query deadline resume ih =>
      cases run with
      | late passed following =>
          rcases ih .expired following with ⟨first, before, middle, after, run, follows, rfl⟩
          exact ⟨first, before, middle, after, .late passed run, follows, rfl⟩
      | @ask _ _ _ reply _ moment _ _ _ early closes following =>
          rcases ih reply following with ⟨first, before, middle, after, run, follows, rfl⟩
          exact ⟨first, _, middle, after, .ask early closes run, follows, rfl⟩
      | stuck endless => exact ⟨_, _, _, [], .stuck endless, .stuck, rfl⟩

/-- What may follow an outcome may do so when a run has come to it. -/
theorem andThen {next : Outcome α → Activity β} {outcome : Outcome α} {before after : List Label}
    {middle : Rat} {ending : Ending β} (first : Run activity start before (.ended outcome) middle)
    (second : Run (next outcome) middle after ending stop) :
    Run (activity.andThen next) start (before ++ after) ending stop := by
  generalize same : (Ending.ended outcome : Ending α) = ended at first
  induction first with
  | done =>
      cases same
      exact second
  | suspended => cases same
  | tell following ih => exact .tell (ih second same)
  | clock following ih => exact .clock (ih second same)
  | late passed following ih => exact .late passed (ih second same)
  | ask early closes following ih => exact .ask early closes (ih second same)
  | stuck endless => cases same

/-- An activity without an outcome is all there is, whatever was to follow its outcome. -/
theorem andThen_of_noOutcome {next : Outcome α → Activity β} {ending : Ending α} {same : Ending β}
    (run : Run activity start labels ending stop)
    (noOutcome : ending = .stuck ∧ same = .stuck ∨ ending = .unfinished ∧ same = .unfinished) :
    Run (activity.andThen next) start labels same stop := by
  induction run with
  | done => simp at noOutcome
  | suspended =>
      rcases noOutcome with ⟨⟨⟩, _⟩ | ⟨_, rfl⟩
      exact .suspended
  | tell following ih => exact .tell (ih noOutcome)
  | clock following ih => exact .clock (ih noOutcome)
  | late passed following ih => exact .late passed (ih noOutcome)
  | ask early closes following ih => exact .ask early closes (ih noOutcome)
  | stuck endless =>
      rcases noOutcome with ⟨_, rfl⟩ | ⟨⟨⟩, _⟩
      exact .stuck endless

/-- A failure is handled; any other ending is the ending of what is handled. -/
theorem handle_iff {handler : Failure → Activity α} {ending : Ending α} :
    Run (activity.handle handler) start labels ending stop ↔
      (Run activity start labels ending stop ∧ ∀ failure, ending ≠ .ended (.error failure)) ∨
        ∃ failure before middle after,
          Run activity start before (.ended (.error failure)) middle ∧
            Run (handler failure) middle after ending stop ∧ labels = before ++ after := by
  constructor
  · intro run
    rcases andThen_inv run with ⟨first, before, middle, after, firstRun, follows, rfl⟩
    cases follows with
    | @ended outcome _ _ _ _ next =>
        cases outcome with
        | ok value =>
            cases next
            exact Or.inl ⟨by rwa [List.append_nil], nofun⟩
        | error failure => exact Or.inr ⟨failure, before, middle, after, firstRun, next, rfl⟩
    | stuck => exact Or.inl ⟨by rwa [List.append_nil], nofun⟩
    | unfinished => exact Or.inl ⟨by rwa [List.append_nil], nofun⟩
  · rintro (⟨run, noFailure⟩ | ⟨failure, before, middle, after, firstRun, next, rfl⟩)
    · cases ending with
      | ended outcome =>
          cases outcome with
          | ok value =>
              rw [← List.append_nil labels]
              exact run.andThen .done
          | error failure => exact absurd rfl (noFailure failure)
      | stuck => exact run.andThen_of_noOutcome (Or.inl ⟨rfl, rfl⟩)
      | unfinished => exact run.andThen_of_noOutcome (Or.inr ⟨rfl, rfl⟩)
    · exact firstRun.andThen next

/-- A failure ends what was to go on with a result. -/
theorem bind_of_error {next : α → Activity β} {failure : Failure}
    (first : Run activity start labels (.ended (.error failure)) stop) :
    Run (activity >>= next) start labels (.ended (.error failure)) stop := by
  rw [← List.append_nil labels]
  exact first.andThen .done

/-- Either the first activity has a result with which the second one goes on, or there is no
second one. -/
theorem bind_inv {next : α → Activity β} {ending : Ending β}
    (run : Run (activity >>= next) start labels ending stop) :
    (∃ value before middle after, Run activity start before (.ended (.ok value)) middle ∧
        Run (next value) middle after ending stop ∧ labels = before ++ after) ∨
      ∃ early, Run activity start labels early stop ∧ Abandons early ending := by
  rcases andThen_inv run with ⟨first, before, middle, after, run, follows, rfl⟩
  cases follows with
  | @ended outcome _ _ _ _ second =>
      cases outcome with
      | ok value => exact Or.inl ⟨value, before, middle, after, run, second, rfl⟩
      | error failure =>
          cases second
          exact Or.inr ⟨_, by rwa [List.append_nil], .failed⟩
  | stuck => exact Or.inr ⟨_, by rwa [List.append_nil], .stuck⟩
  | unfinished => exact Or.inr ⟨_, by rwa [List.append_nil], .unfinished⟩

/-- The first activity runs to its end, whether or not its result is then changed. -/
theorem bind_pure_inv {change : α → β} {ending : Ending β}
    (run : Run (activity >>= fun value => pure (change value)) start labels ending stop) :
    ∃ early, Run activity start labels early stop ∧
      ((∃ value, early = .ended (.ok value) ∧ ending = .ended (.ok (change value))) ∨
        Abandons early ending) := by
  rcases bind_inv run with ⟨value, before, _, _, first, last, rfl⟩ | ⟨early, first, abandons⟩
  · cases last
    rw [List.append_nil]
    exact ⟨_, first, Or.inl ⟨value, rfl, rfl⟩⟩
  · exact ⟨early, first, Or.inr abandons⟩

/-- Time does not go back. -/
theorem start_le_stop {ending : Ending α} (run : Run activity start labels ending stop) :
    start ≤ stop := by
  induction run with
  | done => exact Rat.le_refl
  | suspended => exact Rat.le_refl
  | tell next ih => exact ih
  | clock next ih => exact ih
  | late passed next ih => exact ih
  | ask early closes next ih => exact Rat.le_trans (closes.start_le early) ih
  | stuck endless => exact Rat.le_refl

theorem bind_pure {ending : Ending α} (run : Run activity start labels ending stop)
    (change : α → β) :
    Run (activity >>= fun value => pure (change value)) start labels (ending.map change) stop := by
  cases ending with
  | ended outcome =>
      rw [← List.append_nil labels]
      cases outcome <;> exact run.andThen .done
  | stuck => exact run.andThen_of_noOutcome (Or.inl ⟨rfl, rfl⟩)
  | unfinished => exact run.andThen_of_noOutcome (Or.inr ⟨rfl, rfl⟩)

theorem done_inv {outcome : Outcome α} {ending : Ending α}
    (run : Run (Activity.done outcome) start labels ending stop) :
    labels = [] ∧ ending = .ended outcome ∧ stop = start := by
  cases run
  exact ⟨rfl, rfl, rfl⟩

theorem tell_inv {event : Event} {rest : Activity α} {ending : Ending α}
    (run : Run (Activity.tell event rest) start labels ending stop) :
    ∃ after, Run rest start after ending stop ∧ labels = .told start event :: after := by
  cases run with
  | tell next => exact ⟨_, next, rfl⟩

theorem emit_bind_inv {event : Event} {next : Unit → Activity β} {ending : Ending β}
    (run : Run (emit event >>= next) start labels ending stop) :
    ∃ after, Run (next ()) start after ending stop ∧ labels = .told start event :: after :=
  tell_inv run

theorem lift_bind_inv {outcome : Outcome α} {next : α → Activity β} {ending : Ending β}
    (run : Run ((liftM outcome : Activity α) >>= next) start labels ending stop) :
    (∃ value, outcome = .ok value ∧ Run (next value) start labels ending stop) ∨
      ∃ failure, outcome = .error failure ∧ labels = [] ∧ ending = .ended (.error failure) := by
  cases outcome with
  | ok value => exact Or.inl ⟨value, rfl, run⟩
  | error failure =>
      rcases done_inv run with ⟨rfl, rfl, _⟩
      exact Or.inr ⟨failure, rfl, rfl, rfl⟩

theorem lift_bind {outcome : Outcome α} {value : α} {next : α → Activity β} {ending : Ending β}
    (found : outcome = .ok value) (run : Run (next value) start labels ending stop) :
    Run ((liftM outcome : Activity α) >>= next) start labels ending stop := by
  subst found
  exact run

/-- A context is seen in what is told only. -/
theorem within_map_inv {context : Dict} {ending : Ending α}
    (run : Run (activity.within context) start labels ending stop) :
    ∃ own, Run activity start own ending stop ∧ labels = own.map (Label.within context) := by
  induction activity generalizing start labels with
  | done outcome =>
      cases run
      exact ⟨[], .done, rfl⟩
  | suspended =>
      cases run
      exact ⟨[], .suspended, rfl⟩
  | tell event rest ih =>
      cases run with
      | tell next =>
          rcases ih next with ⟨own, run, rfl⟩
          exact ⟨_, .tell run, rfl⟩
  | clock resume ih =>
      cases run with
      | clock next =>
          rcases ih start next with ⟨own, run, rfl⟩
          exact ⟨own, .clock run, rfl⟩
  | ask query deadline resume ih =>
      cases run with
      | late passed next =>
          rcases ih .expired next with ⟨own, run, rfl⟩
          exact ⟨own, .late passed run, rfl⟩
      | ask early closes next =>
          rcases ih _ next with ⟨own, run, rfl⟩
          exact ⟨_, .ask early closes run, rfl⟩
      | stuck endless => exact ⟨_, .stuck endless, rfl⟩

/-- An activity runs in a context as it does without one. -/
theorem within {ending : Ending α} (run : Run activity start labels ending stop)
    (context : Dict) :
    Run (activity.within context) start (labels.map (Label.within context)) ending stop := by
  induction run with
  | done => exact .done
  | suspended => exact .suspended
  | tell next ih => exact .tell ih
  | clock next ih => exact .clock ih
  | late passed next ih => exact .late passed ih
  | ask early closes next ih => exact .ask early closes ih
  | stuck endless => exact .stuck endless

end Run

section Worlds

variable {State : Type} (world : World State)

/-- What can be seen of an activity that runs in a world. -/
def trace : Activity α → (cancelAt : Option Rat) → (now : Rat) → State → List Label
  | done _, _, _, _ => []
  | suspended, _, _, _ => []
  | tell event rest, cancelAt, now, state =>
    .told now event :: rest.trace cancelAt now (world.observe state event)
  | clock resume, cancelAt, now, state => (resume now).trace cancelAt now state
  | ask query deadline resume, cancelAt, now, state =>
    if deadline.any (· ≤ now) then (resume .expired).trace cancelAt now state
    else
      let response := world.reply state now query
      match Closing.of now cancelAt deadline response.delay response.answer with
      | none => [.unanswered query now]
      | some closing =>
        .asked query now closing.time closing.reply ::
          (resume closing.reply).trace (if closing.wasCancelled then none else cancelAt)
            closing.time response.next

theorem delay_of_duration? {state : State} {now : Rat} {query : Query} {seconds : Rat}
    (duration : query.duration? = some seconds) :
    ∃ delay, (world.reply state now query).delay = some delay ∧ seconds = max delay 0 := by
  cases query with
  | sleep given =>
      simp only [Query.duration?, Option.some.injEq] at duration
      exact ⟨given, rfl, duration.symm⟩
  | _ => cases duration

/-- Of two closings the earlier one counts. -/
theorem earlier_eq_some {first second : Option (Closing α)} {closing : Closing α}
    (found : Closing.earlier first second = some closing) :
    (first = some closing ∧ ∀ other ∈ second, closing.time ≤ other.time) ∨
      (second = some closing ∧ ∀ other ∈ first, closing.time < other.time) := by
  cases first with
  | none => exact Or.inr ⟨found, by simp⟩
  | some one =>
      cases second with
      | none => exact Or.inl ⟨found, by simp⟩
      | some other =>
          simp only [Closing.earlier] at found
          split at found
          · next ordered =>
              cases found
              exact Or.inl ⟨rfl, by simpa using ordered⟩
          · next ordered =>
              cases found
              refine Or.inr ⟨rfl, ?_⟩
              simp only [Option.mem_some_iff, forall_eq']
              grind

theorem earlier_eq_none {first second : Option (Closing α)}
    (found : Closing.earlier first second = none) : first = none ∧ second = none := by
  cases first with
  | none => exact ⟨rfl, found⟩
  | some one =>
      cases second with
      | none => cases found
      | some other =>
          simp only [Closing.earlier] at found
          split at found <;> cases found

theorem closes_of_closing {now : Rat} {query : Query} {cancelAt deadline delay : Option Rat}
    {answer : query.Answer} {closing : Closing query.Answer}
    (found : Closing.of now cancelAt deadline delay answer = some closing)
    (early : ∀ limit ∈ deadline, now < limit)
    (duration : ∀ seconds ∈ query.duration?, delay.map (max · 0) = some seconds) :
    Closes now query deadline closing.reply closing.time := by
  -- A cancellation counts before the deadline, and the deadline before the answer.
  rcases earlier_eq_some found with ⟨cancels, before⟩ | ⟨found, _⟩
  · rcases Option.map_eq_some_iff.mp cancels with ⟨time, _, rfl⟩
    refine .cancelled (by grind) ?_
    intro limit due
    subst due
    have inTime := before
    cases delay with
    | none => simpa [Closing.earlier] using inTime
    | some delay =>
        simp only [Option.map_some, Closing.earlier] at inTime
        split at inTime
        · simpa using inTime
        · next later =>
            simp only [Option.mem_some_iff, forall_eq'] at inTime
            grind
  · rcases earlier_eq_some found with ⟨expires, _⟩ | ⟨answers, before⟩
    · rcases Option.map_eq_some_iff.mp expires with ⟨limit, due, rfl⟩
      exact .expired due
    · rcases Option.map_eq_some_iff.mp answers with ⟨seconds, delayed, rfl⟩
      refine .answered (by grind) ?_ ?_
      · intro known duration?
        have same := duration known duration?
        rw [delayed, Option.map_some, Option.some.injEq] at same
        simp [same]
      · intro limit due
        exact before { time := limit, reply := .expired } (by simp [Option.mem_def.mp due])

/-- An activity that runs in a world runs as activities may. -/
theorem run_trace (activity : Activity α) (cancelAt : Option Rat) (now : Rat) (state : State) :
    Run activity now (activity.trace world cancelAt now state)
      (activity.run world cancelAt now state).1 (activity.run world cancelAt now state).2.1 := by
  induction activity generalizing cancelAt now state with
  | done outcome => exact .done
  | suspended => exact .suspended
  | tell event rest ih => exact .tell (ih cancelAt now (world.observe state event))
  | clock resume ih => exact .clock (ih now cancelAt now state)
  | ask query deadline resume ih =>
      rw [trace, Activity.run]
      -- Whether a question is asked at all is decided before the world is.
      by_cases passed : deadline.any (· ≤ now) = true
      · rw [if_pos passed, if_pos passed]
        cases deadline with
        | none => simp at passed
        | some limit => exact .late (by simpa using passed) (ih .expired cancelAt now state)
      · rw [if_neg passed, if_neg passed]
        have early : ∀ limit ∈ deadline, now < limit := by
          intro limit due
          subst due
          have notPassed : ¬limit ≤ now := by simpa using passed
          grind
        cases closed : Closing.of now cancelAt deadline (world.reply state now query).delay
            (world.reply state now query).answer with
        | none =>
            rcases earlier_eq_none closed with ⟨_, others⟩
            rcases earlier_eq_none others with ⟨noDeadline, noAnswer⟩
            rw [Option.map_eq_none_iff] at noDeadline noAnswer
            subst noDeadline
            simp only [closed]
            refine .stuck ?_
            cases duration : query.duration? with
            | none => rfl
            | some seconds =>
                rcases delay_of_duration? world duration with ⟨delay, delayed, _⟩
                rw [noAnswer] at delayed
                cases delayed
        | some closing =>
            simp only [closed]
            refine .ask early (closes_of_closing closed early ?_) (ih _ _ _ _)
            intro seconds duration
            rcases delay_of_duration? world duration with ⟨delay, delayed, rfl⟩
            rw [delayed, Option.map_some]

/-- A question without a deadline is answered when the world says so. -/
theorem run_ask {query : Query} {resume : Reply query.Answer → Activity α} {now delay : Rat}
    {state : State} (answers : (world.reply state now query).delay = some delay) :
    (ask query none resume).run world none now state =
      (resume (.answer (world.reply state now query).answer)).run world none (now + max delay 0)
        (world.reply state now query).next := by
  have closes : Closing.of now none none (world.reply state now query).delay
      (world.reply state now query).answer =
        some ⟨now + max delay 0, .answer (world.reply state now query).answer, false⟩ := by
    rw [answers]
    rfl
  rw [Activity.run, if_neg (by simp)]
  simp only [closes, ite_self]

/-- What follows a note and a pause runs later. -/
theorem run_pause {event : Event} {seconds now : Rat} {next : Activity α} {state : State} :
    (do emit event; sleep seconds; next).run world none now state =
      next.run world none (now + max (max seconds 0) 0) (world.observe state event) := by
  change (ask (.sleep (max seconds 0)) none _).run world none now (world.observe state event) = _
  rw [run_ask world rfl]
  rfl

/-- What follows an outcome runs in the world that is left by what comes to the outcome. -/
theorem run_andThen {activity : Activity α} {next : Outcome α → Activity β} {outcome : Outcome α}
    {now stop : Rat} {state after : State}
    (first : activity.run world none now state = (.ended outcome, stop, after)) :
    (activity.andThen next).run world none now state =
      (next outcome).run world none stop after := by
  induction activity generalizing now state with
  | done outcome =>
      cases first
      rfl
  | suspended => cases first
  | tell event rest ih => exact ih first
  | clock resume ih => exact ih now first
  | ask query deadline resume ih =>
      rw [Activity.run] at first
      rw [andThen, Activity.run]
      split at first
      · next passed =>
          rw [if_pos passed]
          exact ih .expired first
      · next early =>
          rw [if_neg early]
          dsimp only at first ⊢
          split at first
          · cases first
          · next closing closed =>
              rw [ite_self] at first
              simp only [ite_self]
              exact ih closing.reply first

end Worlds

end Activity

end ContractClient
