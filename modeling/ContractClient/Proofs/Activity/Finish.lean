import ContractClient.Proofs.Activity.Call

/-!
# Activities that finish

A loop is followed for a number of rounds only. An activity without such a loop finishes: it comes
to an outcome, unless it waits for an answer forever. `Activity.FinishesIn` says so of an activity
that asks nodes only, and how many questions it asks at most. All of its runs keep to that
(`Activity.FinishesIn.ne_unfinished`, `Activity.FinishesIn.length_queries_le`).
-/

namespace ContractClient

/-- A node is asked to execute a method. -/
def Query.IsCall (query : Query) : Prop :=
  ∃ method params, query = .call method params

namespace Activity

variable {α β : Type} {activity : Activity α} {limit more : Nat}

/-- An activity has no more rounds than are followed, and asks a node at most so many questions and
nothing else, whatever the replies are. -/
def FinishesIn : (limit : Nat) → Activity α → Prop
  | _, done _ => True
  | _, suspended => False
  | limit, tell _ rest => rest.FinishesIn limit
  | limit, clock resume => ∀ now, (resume now).FinishesIn limit
  | limit, ask query _ resume =>
    query.IsCall ∧ 0 < limit ∧ ∀ reply, (resume reply).FinishesIn (limit - 1)

namespace FinishesIn

theorem mono (finishes : activity.FinishesIn limit) (fewer : limit ≤ more) :
    activity.FinishesIn more := by
  induction activity generalizing limit more with
  | done outcome => trivial
  | suspended => exact finishes.elim
  | tell event rest ih => exact ih finishes fewer
  | clock resume ih => exact fun now => ih now (finishes now) fewer
  | ask query deadline resume ih =>
      rcases finishes with ⟨call, positive, resumed⟩
      refine ⟨call, by omega, fun reply => ?_⟩
      exact ih reply (resumed reply) (by omega)

theorem andThen {next : Outcome α → Activity β} (first : activity.FinishesIn limit)
    (second : ∀ outcome, (next outcome).FinishesIn more) :
    (activity.andThen next).FinishesIn (more + limit) := by
  induction activity generalizing limit with
  | done outcome => exact (second outcome).mono (Nat.le_add_right _ _)
  | suspended => exact first.elim
  | tell event rest ih => exact ih first
  | clock resume ih => exact fun now => ih now (first now)
  | ask query deadline resume ih =>
      rcases first with ⟨call, positive, resumed⟩
      refine ⟨call, by omega, fun reply => ?_⟩
      have rest := ih reply (resumed reply)
      rwa [← Nat.add_sub_assoc positive] at rest

/-- What asks nothing may follow. -/
theorem andThen_silent {next : Outcome α → Activity β} (first : activity.FinishesIn limit)
    (silent : ∀ outcome, (next outcome).FinishesIn 0) :
    (activity.andThen next).FinishesIn limit := by
  have both := first.andThen silent
  rwa [Nat.zero_add] at both

theorem bind {next : α → Activity β} (first : activity.FinishesIn limit)
    (second : ∀ value, (next value).FinishesIn more) :
    (activity >>= next).FinishesIn (more + limit) := by
  apply andThen first
  intro outcome
  cases outcome with
  | ok value => exact second value
  | error failure => trivial

theorem lift (outcome : Outcome α) : (liftM outcome : Activity α).FinishesIn 0 :=
  trivial

theorem emit (event : Event) : (Activity.emit event).FinishesIn 0 :=
  trivial

theorem send (method : String) (params : List Value) :
    (Transport.direct.send method params).FinishesIn 1 := by
  refine ⟨⟨method, params, rfl⟩, Nat.one_pos, ?_⟩
  rintro (outcome | _ | _)
  · cases outcome <;> trivial
  · trivial
  · trivial

theorem expire (finishes : activity.FinishesIn limit) : activity.expire.FinishesIn limit := by
  apply andThen_silent finishes
  intro outcome
  split <;> trivial

theorem bounded (finishes : activity.FinishesIn limit) (deadline : Option Rat) :
    (activity.bounded deadline).FinishesIn limit := by
  cases deadline with
  | none => exact finishes
  | some moment =>
      change (activity.boundedBy moment).FinishesIn limit
      induction activity generalizing limit with
      | done outcome => trivial
      | suspended => exact finishes.elim
      | tell event rest ih => exact ih finishes
      | clock resume ih => exact fun now => ih now (finishes now)
      | ask query deadline resume ih =>
          rcases finishes with ⟨call, positive, finishes⟩
          have resumed : ∀ reply, ((resume reply).boundedBy moment).FinishesIn (limit - 1) :=
            fun reply => ih reply (finishes reply)
          have expired := expire (finishes .cancelled)
          cases deadline with
          | none =>
              rw [boundedBy]
              refine ⟨call, positive, ?_⟩
              rintro (answer | _ | _)
              · exact resumed (.answer answer)
              · exact expired
              · exact resumed .cancelled
          | some own =>
              by_cases earlier : own ≤ moment
              · rw [boundedBy, if_pos earlier]
                exact ⟨call, positive, resumed⟩
              · rw [boundedBy, if_neg earlier]
                refine ⟨call, positive, ?_⟩
                rintro (answer | _ | _)
                · exact resumed (.answer answer)
                · exact expired
                · exact resumed .cancelled

section Runs

variable {start stop : Rat} {labels : List Label} {ending : Ending α}

theorem ne_unfinished (finishes : activity.FinishesIn limit)
    (run : Run activity start labels ending stop) : ending ≠ .unfinished := by
  induction run generalizing limit with
  | done => simp
  | suspended => exact finishes.elim
  | tell next ih => exact ih finishes
  | clock next ih => exact ih (finishes _)
  | late passed next ih => exact ih (finishes.2.2 _)
  | ask early closes next ih => exact ih (finishes.2.2 _)
  | stuck endless => simp

theorem isCall_of_mem_queries (finishes : activity.FinishesIn limit)
    (run : Run activity start labels ending stop) : ∀ query ∈ queries labels, query.IsCall := by
  induction run generalizing limit with
  | done => simp [queries]
  | suspended => simp [queries]
  | tell next ih => exact ih finishes
  | clock next ih => exact ih (finishes _)
  | late passed next ih => exact ih (finishes.2.2 _)
  | ask early closes next ih =>
      exact List.forall_mem_cons.mpr ⟨finishes.1, ih (finishes.2.2 _)⟩
  | stuck endless => exact List.forall_mem_cons.mpr ⟨finishes.1, by simp⟩

theorem length_queries_le (finishes : activity.FinishesIn limit)
    (run : Run activity start labels ending stop) : (queries labels).length ≤ limit := by
  induction run generalizing limit with
  | done => exact Nat.zero_le _
  | suspended => exact Nat.zero_le _
  | tell next ih => exact ih finishes
  | clock next ih => exact ih (finishes _)
  | late passed next ih => exact Nat.le_trans (ih (finishes.2.2 _)) (Nat.sub_le _ _)
  | ask early closes next ih =>
      have rest := ih (finishes.2.2 _)
      have positive := finishes.2.1
      change (queries _).length + 1 ≤ _
      omega
  | stuck endless => exact finishes.2.1

end Runs

end FinishesIn

end Activity

end ContractClient
