import ContractClient.Proofs.Activity.Call

/-!
# Deadlines

An activity that gives up as soon as it is cancelled runs behind a deadline as it does without one,
until the deadline comes: then the question that is open stays without an answer, and the outcome is
a timeout (`Activity.Run.bounded_inv`).
-/

namespace ContractClient

/-- A question that expires looks to the node like one that it has not answered. -/
theorem calls_expired (limit : Rat) {before : List Label} {query : Query} {moment : Rat} :
    calls (before ++ [.asked query moment limit .expired]) =
      calls (before ++ [.unanswered query moment]) := by
  rw [calls_append, calls_append]
  cases query <;> rfl

/-- The activity was not cancelled while a question was open. -/
def Label.Uncancelled : Label → Prop
  | asked _ _ _ .cancelled => False
  | _ => True

/-- A question came to an end, and not by a cancellation. -/
def Label.Closed : Label → Prop
  | asked _ _ _ .cancelled => False
  | unanswered _ _ => False
  | _ => True

theorem Label.Closed.uncancelled {label : Label} (closed : label.Closed) : label.Uncancelled := by
  cases label with
  | asked query start stop reply => cases reply <;> exact closed
  | _ => trivial

theorem Label.closed_within {context : Dict} {label : Label}
    (closed : (label.within context).Closed) : label.Closed := by
  cases label with
  | told now event => trivial
  | _ => exact closed

namespace Activity

variable {α β : Type}

theorem Run.stuck_inv {activity : Activity α} {start stop : Rat} {labels : List Label}
    (run : Run activity start labels .stuck stop) : ∃ label ∈ labels, ¬label.Closed := by
  generalize same : (Ending.stuck : Ending α) = ending at run
  induction run with
  | done => cases same
  | suspended => cases same
  | tell next ih =>
      rcases ih same with ⟨label, member, opened⟩
      exact ⟨label, List.mem_cons_of_mem _ member, opened⟩
  | clock next ih => exact ih same
  | late passed next ih => exact ih same
  | ask early closes next ih =>
      rcases ih same with ⟨label, member, opened⟩
      exact ⟨label, List.mem_cons_of_mem _ member, opened⟩
  | stuck endless => exact ⟨_, List.mem_cons_self, not_false⟩

/-- An activity has no deadlines of its own, and a cancellation ends it at once. -/
def Yields : Activity α → Prop
  | done _ => True
  | suspended => True
  | tell _ rest => rest.Yields
  | clock resume => ∀ now, (resume now).Yields
  | ask query deadline resume =>
    query.duration? = none ∧ deadline = none ∧ resume .cancelled = done (.error .cancelled) ∧
      ∀ reply, (resume reply).Yields

namespace Yields

variable {activity : Activity α}

theorem andThen {next : Outcome α → Activity β} (first : activity.Yields)
    (second : ∀ outcome, (next outcome).Yields)
    (passes : next (.error .cancelled) = done (.error .cancelled)) :
    (activity.andThen next).Yields := by
  induction activity with
  | done outcome => exact second outcome
  | suspended => trivial
  | tell event rest ih => exact ih first
  | clock resume ih => exact fun now => ih now (first now)
  | ask query deadline resume ih =>
      rcases first with ⟨untimed, noDeadline, ends, resumed⟩
      have stops : (resume .cancelled).andThen next = done (.error .cancelled) := by
        rw [ends]
        exact passes
      exact ⟨untimed, noDeadline, stops, fun reply => ih reply (resumed reply)⟩

theorem bind {next : α → Activity β} (first : activity.Yields)
    (second : ∀ value, (next value).Yields) : (activity >>= next).Yields := by
  refine andThen first (fun outcome => ?_) rfl
  cases outcome with
  | ok value => exact second value
  | error failure => trivial

theorem lift (outcome : Outcome α) : (liftM outcome : Activity α).Yields :=
  trivial

theorem send (method : String) (params : List Value) :
    (Transport.direct.send method params).Yields := by
  refine ⟨rfl, rfl, rfl, fun reply => ?_⟩
  cases reply <;> trivial

end Yields

/-- A run that ends at a deadline: its last question is left without an answer. -/
inductive Expires (activity : Activity α) (start limit : Rat) : List Label → Ending α → Prop where
  | unanswered {before : List Label} {query : Query} {moment : Rat}
      (waits : Run activity start (before ++ [.unanswered query moment]) .stuck moment) :
      Expires activity start limit (before ++ [.asked query moment limit .expired])
        (.ended (Outcome.condition .timeout))

namespace Expires

variable {start limit moment : Rat} {labels : List Label} {ending : Ending α}

theorem tell {event : Event} {rest : Activity α}
    (expires : Expires rest start limit labels ending) :
    Expires (.tell event rest) start limit (.told start event :: labels) ending := by
  cases expires with
  | @unanswered before query moment waits =>
      have told : Run (.tell event rest) start
        ((.told start event :: before) ++ [.unanswered query moment]) .stuck moment := .tell waits
      exact .unanswered told

theorem clock {resume : Rat → Activity α}
    (expires : Expires (resume start) start limit labels ending) :
    Expires (.clock resume) start limit labels ending := by
  cases expires with
  | unanswered waits => exact .unanswered (.clock waits)

theorem ask {query : Query} {resume : Reply query.Answer → Activity α} {reply : Reply query.Answer}
    (closes : Closes start query none reply moment)
    (expires : Expires (resume reply) moment limit labels ending) :
    Expires (.ask query none resume) start limit (.asked query start moment reply :: labels)
      ending := by
  cases expires with
  | @unanswered before last later waits =>
      have asked : Run (.ask query none resume) start
        ((.asked query start moment reply :: before) ++ [.unanswered last later]) .stuck later :=
        .ask (by simp) closes waits
      exact .unanswered asked

end Expires

section Deadlines

variable {activity : Activity α} {start stop : Rat} {labels : List Label} {ending : Ending α}

theorem Run.boundedBy_inv {limit : Rat} (yields : activity.Yields) (early : start < limit)
    (run : Run (activity.boundedBy limit) start labels ending stop) :
    Run activity start labels ending stop ∨ Expires activity start limit labels ending := by
  induction activity generalizing start labels with
  | done outcome =>
      cases run
      exact Or.inl .done
  | suspended =>
      cases run
      exact Or.inl .suspended
  | tell event rest ih =>
      rcases Run.tell_inv run with ⟨after, next, rfl⟩
      exact (ih yields early next).imp .tell .tell
  | clock resume ih =>
      cases run with
      | clock next => exact (ih start (yields start) early next).imp .clock .clock
  | ask query deadline resume ih =>
      rcases yields with ⟨untimed, rfl, ends, resumed⟩
      rw [boundedBy] at run
      cases run with
      | late passed next => grind
      | @ask _ _ _ _ _ moment _ _ _ _ closes next =>
          cases closes with
          | @answered answer _ asked duration inTime =>
              have closes : Closes start query none (.answer answer) moment :=
                .answered asked duration (by simp)
              exact (ih _ (resumed _) (inTime limit rfl) next).imp (.ask (by simp) closes)
                (.ask closes)
          | expired due =>
              cases due
              dsimp only at next
              rw [ends] at next
              rcases Run.done_inv next with ⟨rfl, rfl, rfl⟩
              have waits : Run (.ask query none resume) start ([] ++ [.unanswered query start])
                .stuck start := .stuck untimed
              exact Or.inr (.unanswered waits)
          | cancelled asked inTime =>
              dsimp only at next
              rw [ends] at next
              have same : (Activity.done (.error .cancelled) : Activity α).boundedBy limit =
                  resume .cancelled := by
                rw [ends]
                rfl
              rw [same] at next
              exact Or.inl (.ask (by simp) (.cancelled asked (by simp)) next)

theorem Run.bounded_inv {deadline : Option Rat} (yields : activity.Yields)
    (early : ∀ limit ∈ deadline, start < limit)
    (run : Run (activity.bounded deadline) start labels ending stop) :
    Run activity start labels ending stop ∨
      ∃ limit ∈ deadline, Expires activity start limit labels ending := by
  cases deadline with
  | none => exact Or.inl run
  | some limit =>
      have inTime := early limit rfl
      exact (boundedBy_inv yields inTime run).imp_right fun expires => ⟨limit, rfl, expires⟩

end Deadlines

end Activity

end ContractClient
