import ContractClient.Proofs.Activity.Run

/-!
# Activities that end by a moment

In a world questions may take any time, and some are never answered. An activity ends by a moment in
every world if each of its questions has a deadline that comes by then or takes a known time that
ends by then (`Activity.EndsBy`). This is a condition on the tree of questions and on the moment at
which they are asked. It passes through sequences and contexts, and it bounds every run
(`Activity.EndsBy.run`).

An activity behind a deadline ends by the deadline if it gives up as soon as it is cancelled
(`Activity.Interruptible.endsBy_boundedBy`): what is still open then is cancelled, and nothing else
is asked.
-/

namespace ContractClient

/-- What a label shows is over by a moment. -/
def Label.EndsBy (limit : Rat) : Label → Prop
  | told now _ => now ≤ limit
  | asked _ _ stop _ => stop ≤ limit
  | unanswered _ _ => False

/-- A question that is asked at a moment is over by a later one, whether it is answered or not. -/
def Query.EndsBy (query : Query) (limit : Rat) (deadline : Option Rat) (now : Rat) : Prop :=
  (∃ own ∈ deadline, own ≤ limit) ∨ ∃ seconds ∈ query.duration?, now + seconds ≤ limit

namespace Activity

variable {α β : Type} {activity : Activity α} {limit now : Rat}

/-- An activity that goes on from a moment is over by a later one, whatever the replies are. -/
def EndsBy (limit : Rat) : Activity α → (now : Rat) → Prop
  | done _, _ => True
  | suspended, _ => True
  | tell _ rest, now => rest.EndsBy limit now
  | clock resume, now => (resume now).EndsBy limit now
  | ask query deadline resume, now =>
    query.EndsBy limit deadline now ∧
      ∀ reply moment, now ≤ moment → moment ≤ limit → (resume reply).EndsBy limit moment

namespace EndsBy

theorem andThen {next : Outcome α → Activity β} (first : activity.EndsBy limit now)
    (inTime : now ≤ limit)
    (second : ∀ outcome moment, now ≤ moment → moment ≤ limit →
      (next outcome).EndsBy limit moment) : (activity.andThen next).EndsBy limit now := by
  induction activity generalizing now with
  | done outcome => exact second outcome now Rat.le_refl inTime
  | suspended => trivial
  | tell event rest ih => exact ih first inTime second
  | clock resume ih => exact ih now first inTime second
  | ask query deadline resume ih =>
      refine ⟨first.1, fun reply moment later before => ?_⟩
      exact ih reply (first.2 reply moment later before) before
        fun outcome last after => second outcome last (Rat.le_trans later after)

theorem bind {next : α → Activity β} (first : activity.EndsBy limit now) (inTime : now ≤ limit)
    (second : ∀ value moment, now ≤ moment → moment ≤ limit →
      (next value).EndsBy limit moment) : (activity >>= next).EndsBy limit now := by
  refine andThen first inTime fun outcome moment later before => ?_
  cases outcome with
  | ok value => exact second value moment later before
  | error failure => trivial

theorem handle {handler : Failure → Activity α} (first : activity.EndsBy limit now)
    (inTime : now ≤ limit)
    (second : ∀ failure moment, now ≤ moment → moment ≤ limit →
      (handler failure).EndsBy limit moment) : (activity.handle handler).EndsBy limit now := by
  refine andThen first inTime fun outcome moment later before => ?_
  cases outcome with
  | ok value => trivial
  | error failure => exact second failure moment later before

theorem within {context : Dict} (ends : activity.EndsBy limit now) :
    (activity.within context).EndsBy limit now := by
  induction activity generalizing now with
  | done outcome => trivial
  | suspended => trivial
  | tell event rest ih => exact ih ends
  | clock resume ih => exact ih now ends
  | ask query deadline resume ih =>
      exact ⟨ends.1, fun reply moment later before => ih reply (ends.2 reply moment later before)⟩

theorem sleep {seconds : Rat} (short : now + max seconds 0 ≤ limit) :
    (Activity.sleep seconds).EndsBy limit now := by
  refine ⟨Or.inr ⟨_, rfl, by grind⟩, fun reply moment later before => ?_⟩
  cases reply <;> trivial

end EndsBy

/-- An activity asks nothing more and ends as cancelled. -/
def GivesUp : Activity α → Prop
  | done outcome => outcome = .error .cancelled
  | tell _ rest => rest.GivesUp
  | clock resume => ∀ now, (resume now).GivesUp
  | _ => False

theorem GivesUp.andThen {next : Outcome α → Activity β} (givesUp : activity.GivesUp)
    (passes : (next (.error .cancelled)).GivesUp) : (activity.andThen next).GivesUp := by
  induction activity with
  | done outcome =>
      cases givesUp
      exact passes
  | suspended => exact givesUp.elim
  | tell event rest ih => exact ih givesUp
  | clock resume ih => exact fun now => ih now (givesUp now)
  | ask query deadline resume ih => exact givesUp.elim

theorem GivesUp.endsBy_expire (givesUp : activity.GivesUp) :
    activity.expire.EndsBy limit now := by
  induction activity with
  | done outcome =>
      cases givesUp
      trivial
  | suspended => trivial
  | tell event rest ih => exact ih givesUp
  | clock resume ih => exact ih now (givesUp now)
  | ask query deadline resume ih => exact givesUp.elim

/-- An activity can be cancelled at once whatever it waits for. -/
def Interruptible : Activity α → Prop
  | done _ => True
  | suspended => True
  | tell _ rest => rest.Interruptible
  | clock resume => ∀ now, (resume now).Interruptible
  | ask _ _ resume => (resume .cancelled).GivesUp ∧ ∀ reply, (resume reply).Interruptible

namespace Interruptible

theorem andThen {next : Outcome α → Activity β} (first : activity.Interruptible)
    (second : ∀ outcome, (next outcome).Interruptible)
    (passes : (next (.error .cancelled)).GivesUp) : (activity.andThen next).Interruptible := by
  induction activity with
  | done outcome => exact second outcome
  | suspended => trivial
  | tell event rest ih => exact ih first
  | clock resume ih => exact fun now => ih now (first now)
  | ask query deadline resume ih =>
      exact ⟨first.1.andThen passes, fun reply => ih reply (first.2 reply)⟩

theorem bind {next : α → Activity β} (first : activity.Interruptible)
    (second : ∀ value, (next value).Interruptible) : (activity >>= next).Interruptible := by
  refine andThen first (fun outcome => ?_) rfl
  cases outcome with
  | ok value => exact second value
  | error failure => trivial

theorem handle {handler : Failure → Activity α} (first : activity.Interruptible)
    (second : ∀ failure, (handler failure).Interruptible)
    (passes : (handler .cancelled).GivesUp) : (activity.handle handler).Interruptible := by
  refine andThen first (fun outcome => ?_) passes
  cases outcome with
  | ok value => trivial
  | error failure => exact second failure

theorem settle {activity : Activity (Outcome α)} (first : activity.Interruptible) :
    activity.settle.Interruptible := by
  refine andThen first (fun outcome => ?_) rfl
  cases outcome <;> trivial

theorem perform (query : Query) : (Activity.perform query).Interruptible := by
  refine ⟨rfl, fun reply => ?_⟩
  cases reply <;> trivial

theorem sleep (seconds : Rat) : (Activity.sleep seconds).Interruptible :=
  perform _

/-- The deadline of an activity that can be cancelled bounds all of its questions. -/
theorem endsBy_boundedBy (interruptible : activity.Interruptible) :
    (activity.boundedBy limit).EndsBy limit now := by
  induction activity generalizing now with
  | done outcome => trivial
  | suspended => trivial
  | tell event rest ih => exact ih interruptible
  | clock resume ih => exact ih now (interruptible now)
  | ask query deadline resume ih =>
      rcases interruptible with ⟨givesUp, resumed⟩
      -- A question without a deadline, or with a later one, gets the deadline of the activity.
      have limited : ∀ rest : Reply query.Answer → Activity α,
          rest .expired = (resume .cancelled).expire →
          (∀ value, rest (.answer value) = (resume (.answer value)).boundedBy limit) →
          rest .cancelled = (resume .cancelled).boundedBy limit →
          (Activity.ask query (some limit) rest).EndsBy limit now := by
        intro rest atDeadline answered cancelled
        refine ⟨Or.inl ⟨limit, rfl, Rat.le_refl⟩, fun reply moment _ _ => ?_⟩
        cases reply with
        | expired =>
            rw [atDeadline]
            exact givesUp.endsBy_expire
        | answer value =>
            rw [answered]
            exact ih _ (resumed _)
        | cancelled =>
            rw [cancelled]
            exact ih _ (resumed _)
      cases deadline with
      | none =>
          rw [boundedBy]
          exact limited _ rfl (fun _ => rfl) rfl
      | some own =>
          rw [boundedBy]
          split
          · next earlier =>
              exact ⟨Or.inl ⟨own, rfl, earlier⟩, fun reply moment _ _ => ih reply (resumed reply)⟩
          · exact limited _ rfl (fun _ => rfl) rfl

end Interruptible

theorem time_le_of_earlier {first second : Option (Closing α)} {closing : Closing α}
    (found : Closing.earlier first second = some closing) :
    (∀ other ∈ first, closing.time ≤ other.time) ∧ ∀ other ∈ second, closing.time ≤ other.time := by
  rcases earlier_eq_some found with ⟨rfl, others⟩ | ⟨rfl, others⟩
  · refine ⟨?_, others⟩
    rintro other ⟨⟩
    exact Rat.le_refl
  · refine ⟨fun other member => Rat.le_of_lt (others other member), ?_⟩
    rintro other ⟨⟩
    exact Rat.le_refl

/-- No question is open for longer than until its deadline or its answer. -/
theorem time_le_of_closing {cancelAt deadline delay : Option Rat} {answer : α}
    {closing : Closing α}
    (found : Closing.of now cancelAt deadline delay answer = some closing) :
    (∀ own ∈ deadline, closing.time ≤ own) ∧
      ∀ seconds ∈ delay, closing.time ≤ now + max seconds 0 := by
  rcases time_le_of_earlier found with ⟨_, rest⟩
  cases others : Closing.earlier (deadline.map fun time => { time, reply := .expired })
      (delay.map fun delay => { time := now + max delay 0, reply := .answer answer }) with
  | none =>
      rcases earlier_eq_none others with ⟨noDeadline, noAnswer⟩
      rw [Option.map_eq_none_iff] at noDeadline noAnswer
      simp [noDeadline, noAnswer]
  | some other =>
      have sooner : closing.time ≤ other.time := rest other others
      rcases time_le_of_earlier others with ⟨expires, answers⟩
      refine ⟨fun own due => ?_, fun seconds delayed => ?_⟩
      · exact Rat.le_trans sooner (expires _ (Option.mem_map_of_mem _ due))
      · exact Rat.le_trans sooner (answers _ (Option.mem_map_of_mem _ delayed))

theorem le_time_of_closes {query : Query} {deadline : Option Rat} {reply : Reply query.Answer}
    {moment : Rat} (early : ∀ own ∈ deadline, now < own)
    (closes : Closes now query deadline reply moment) : now ≤ moment := by
  cases closes with
  | answered asked => exact asked
  | expired due => exact Rat.le_of_lt (early _ due)
  | cancelled asked => exact asked

section Worlds

variable {State : Type} (world : World State)

/-- A question that is over by a moment comes to an end by then. -/
theorem closing_of_endsBy (cancelAt : Option Rat) (state : State) {query : Query}
    {deadline : Option Rat} (ends : query.EndsBy limit deadline now)
    (early : ∀ own ∈ deadline, now < own) :
    ∃ closing, Closing.of now cancelAt deadline (world.reply state now query).delay
        (world.reply state now query).answer = some closing ∧
      now ≤ closing.time ∧ closing.time ≤ limit := by
  cases closed : Closing.of now cancelAt deadline (world.reply state now query).delay
      (world.reply state now query).answer with
  | none =>
      rcases earlier_eq_none closed with ⟨_, others⟩
      rcases earlier_eq_none others with ⟨noDeadline, noAnswer⟩
      rw [Option.map_eq_none_iff] at noDeadline noAnswer
      rcases ends with ⟨own, due, _⟩ | ⟨seconds, duration, _⟩
      · rw [noDeadline] at due
        cases due
      · rcases delay_of_duration? world duration with ⟨delay, delayed, _⟩
        rw [noAnswer] at delayed
        cases delayed
  | some closing =>
      have known : ∀ seconds ∈ query.duration?,
          (world.reply state now query).delay.map (max · 0) = some seconds := by
        intro seconds duration
        rcases delay_of_duration? world duration with ⟨delay, delayed, rfl⟩
        rw [delayed, Option.map_some]
      rcases time_le_of_closing closed with ⟨byDeadline, byAnswer⟩
      refine ⟨closing, rfl, le_time_of_closes early (closes_of_closing closed early known), ?_⟩
      rcases ends with ⟨own, due, soon⟩ | ⟨seconds, duration, soon⟩
      · exact Rat.le_trans (byDeadline own due) soon
      · rcases delay_of_duration? world duration with ⟨delay, delayed, rfl⟩
        exact Rat.le_trans (byAnswer delay delayed) soon

/-- A run is over by the moment, and so is all that is seen of it. -/
theorem EndsBy.run (ends : activity.EndsBy limit now) (inTime : now ≤ limit)
    (cancelAt : Option Rat) (state : State) :
    (∀ label ∈ activity.trace world cancelAt now state, label.EndsBy limit) ∧
      (activity.run world cancelAt now state).2.1 ≤ limit ∧
      (activity.run world cancelAt now state).1 ≠ .stuck := by
  induction activity generalizing cancelAt now state with
  | done outcome => simp [trace, Activity.run, inTime]
  | suspended => simp [trace, Activity.run, inTime]
  | tell event rest ih =>
      rcases ih ends inTime cancelAt (world.observe state event) with ⟨labels, stops⟩
      exact ⟨List.forall_mem_cons.mpr ⟨inTime, labels⟩, stops⟩
  | clock resume ih => exact ih now ends inTime cancelAt state
  | ask query deadline resume ih =>
      rcases ends with ⟨soon, resumed⟩
      rw [trace, Activity.run]
      by_cases passed : deadline.any (· ≤ now) = true
      · rw [if_pos passed, if_pos passed]
        exact ih .expired (resumed .expired now Rat.le_refl inTime) inTime cancelAt state
      · rw [if_neg passed, if_neg passed]
        have early : ∀ own ∈ deadline, now < own := by
          rintro own rfl
          have notPassed : ¬own ≤ now := by simpa using passed
          grind
        rcases closing_of_endsBy world cancelAt state soon early with
          ⟨closing, closed, later, before⟩
        simp only [closed]
        rcases ih closing.reply (resumed closing.reply closing.time later before) before
          (if closing.wasCancelled then none else cancelAt)
          (world.reply state now query).next with ⟨labels, stops⟩
        exact ⟨List.forall_mem_cons.mpr ⟨before, labels⟩, stops⟩

end Worlds

end Activity

end ContractClient
