import ContractClient.Proofs.Activity.Call
import Mathlib.Data.List.Chain

/-!
# What activities guarantee

`progress` lists what an activity lets others know about a pending transaction, and `knownAfter` is
the last of it. An activity guarantees a relation between one update and the next, and a condition
on its outcome, if they hold whatever the clock shows and whatever the replies are
(`Activity.Guarantees`). This is a condition on the tree of questions. It passes through sequences,
contexts and deadlines, and it holds of every run (`Activity.Guarantees.of_run`).
-/

namespace ContractClient

/-- What a label shows to be known about a pending transaction. -/
def Label.progress? : Label → Option PendingTransaction
  | told _ (.progress pending) => some pending
  | _ => none

/-- What is published about a pending transaction, in order. -/
def progress (labels : List Label) : List PendingTransaction :=
  labels.filterMap Label.progress?

/-- What is known about a pending transaction in the end. -/
def knownAfter (pending : PendingTransaction) (labels : List Label) : PendingTransaction :=
  (progress labels).getLastD pending

@[simp]
theorem progress_nil : progress [] = [] :=
  rfl

@[simp]
theorem progress_asked {query : Query} {start stop : Rat} {reply : Reply query.Answer}
    {labels : List Label} : progress (.asked query start stop reply :: labels) = progress labels :=
  rfl

@[simp]
theorem progress_unanswered {query : Query} {start : Rat} {labels : List Label} :
    progress (.unanswered query start :: labels) = progress labels :=
  rfl

@[simp]
theorem progress_noted {now : Rat} {record : LogRecord} {labels : List Label} :
    progress (.told now (.note record) :: labels) = progress labels :=
  rfl

@[simp]
theorem progress_published {now : Rat} {pending : PendingTransaction} {labels : List Label} :
    progress (.told now (.progress pending) :: labels) = pending :: progress labels :=
  rfl

@[simp]
theorem progress_append (before after : List Label) :
    progress (before ++ after) = progress before ++ progress after :=
  List.filterMap_append

@[simp]
theorem progress_map_within (context : Dict) (labels : List Label) :
    progress (labels.map (Label.within context)) = progress labels := by
  have same : Label.progress? ∘ Label.within context = Label.progress? := by
    funext label
    cases label with
    | told now event => cases event <;> rfl
    | _ => rfl
  rw [progress, List.filterMap_map, same, progress]

theorem knownAfter_eq_or_mem (pending : PendingTransaction) (labels : List Label) :
    knownAfter pending labels = pending ∨ knownAfter pending labels ∈ progress labels := by
  unfold knownAfter
  cases progress labels with
  | nil => exact Or.inl rfl
  | cons first updates =>
      rw [List.getLastD_cons, List.getLastD_eq_getLast?]
      refine Or.inr ?_
      cases last : updates.getLast? with
      | none => exact List.mem_cons_self
      | some update => exact List.mem_cons_of_mem _ (List.mem_of_getLast? last)

theorem knownAfter_of_getLast? {pending known : PendingTransaction} {labels : List Label}
    (last : (progress labels).getLast? = some known) : knownAfter pending labels = known := by
  rw [knownAfter, List.getLastD_eq_getLast?, last, Option.getD_some]

theorem knownAfter_eq_of_ne {pending other : PendingTransaction} {labels : List Label}
    (changed : knownAfter pending labels ≠ pending) :
    knownAfter other labels = knownAfter pending labels := by
  unfold knownAfter at changed ⊢
  cases updates : progress labels with
  | nil => exact absurd (by simp [updates]) changed
  | cons first rest => rw [List.getLastD_cons, List.getLastD_cons]

/-- The failure with which a node answers a question. -/
def Query.refusal? : (query : Query) → Reply query.Answer → Option Failure
  | .call _ _, .answer (.error failure) => some failure
  | _, _ => none

@[simp]
theorem Query.refusal?_expired (query : Query) : query.refusal? .expired = none := by
  cases query <;> rfl

@[simp]
theorem Query.refusal?_cancelled (query : Query) : query.refusal? .cancelled = none := by
  cases query <;> rfl

namespace Activity

variable {α β : Type} {update : PendingTransaction → PendingTransaction → Prop}
  {refused : Failure → Prop} {post : PendingTransaction → Outcome α → Prop}
  {known : PendingTransaction}

/-- Whatever the replies are, each update is one that may follow, and the outcome is as it should be
at what is known then. A node may refuse with some failures only. -/
def Guarantees (update : PendingTransaction → PendingTransaction → Prop) (refused : Failure → Prop)
    (post : PendingTransaction → Outcome α → Prop) : Activity α → PendingTransaction → Prop
  | done outcome, known => post known outcome
  | suspended, _ => True
  | tell (.note _) rest, known => rest.Guarantees update refused post known
  | tell (.progress next) rest, known =>
    update known next ∧ rest.Guarantees update refused post next
  | clock resume, known => ∀ now, (resume now).Guarantees update refused post known
  | ask query _ resume, known =>
    ∀ reply, (∀ failure ∈ query.refusal? reply, refused failure) →
      (resume reply).Guarantees update refused post known

namespace Guarantees

theorem andThen {activity : Activity α} {next : Outcome α → Activity β}
    {post : PendingTransaction → Outcome β → Prop}
    (first : activity.Guarantees update refused
      (fun known outcome => (next outcome).Guarantees update refused post known) known) :
    (activity.andThen next).Guarantees update refused post known := by
  induction activity generalizing known with
  | done outcome => exact first
  | suspended => trivial
  | tell event rest ih =>
      cases event with
      | note record => exact ih first
      | progress pending => exact ⟨first.1, ih first.2⟩
  | clock resume ih => exact fun now => ih now (first now)
  | ask query deadline resume ih => exact fun reply allowed => ih reply (first reply allowed)

theorem mono {activity : Activity α} {other : PendingTransaction → Outcome α → Prop}
    (guarantee : activity.Guarantees update refused post known)
    (weaker : ∀ known outcome, post known outcome → other known outcome) :
    activity.Guarantees update refused other known := by
  induction activity generalizing known with
  | done outcome => exact weaker known outcome guarantee
  | suspended => trivial
  | tell event rest ih =>
      cases event with
      | note record => exact ih guarantee
      | progress pending => exact ⟨guarantee.1, ih guarantee.2⟩
  | clock resume ih => exact fun now => ih now (guarantee now)
  | ask query deadline resume ih => exact fun reply allowed => ih reply (guarantee reply allowed)

theorem within {activity : Activity α} {context : Dict}
    (guarantee : activity.Guarantees update refused post known) :
    (activity.within context).Guarantees update refused post known := by
  induction activity generalizing known with
  | done outcome => exact guarantee
  | suspended => trivial
  | tell event rest ih =>
      cases event with
      | note record => exact ih guarantee
      | progress pending => exact ⟨guarantee.1, ih guarantee.2⟩
  | clock resume ih => exact fun now => ih now (guarantee now)
  | ask query deadline resume ih => exact fun reply allowed => ih reply (guarantee reply allowed)

/-- What is known stays as it is where no update may follow. -/
theorem of_never {activity : Activity α}
    (guarantee : activity.Guarantees (fun _ _ => False) refused post known) :
    activity.Guarantees update refused (fun last outcome => last = known ∧ post known outcome)
      known := by
  induction activity generalizing known with
  | done outcome => exact ⟨rfl, guarantee⟩
  | suspended => trivial
  | tell event rest ih =>
      cases event with
      | note record => exact ih guarantee
      | progress pending => exact absurd guarantee.1 not_false
  | clock resume ih => exact fun now => ih now (guarantee now)
  | ask query deadline resume ih => exact fun reply allowed => ih reply (guarantee reply allowed)

section Deadlines

/-- A timeout is as good an outcome as a cancellation. -/
def TakesTimeout (post : PendingTransaction → Outcome α → Prop) : Prop :=
  ∀ known text, post known (.error (.condition .cancelled text)) →
    post known (Outcome.condition .timeout)

variable {activity : Activity α} (takes : TakesTimeout post)

include takes

theorem expire (guarantee : activity.Guarantees update refused post known) :
    activity.expire.Guarantees update refused post known := by
  refine andThen (guarantee.mono fun known outcome holds => ?_)
  split
  · next text => exact takes known text holds
  · exact holds

theorem boundedBy (guarantee : activity.Guarantees update refused post known) (limit : Rat) :
    (activity.boundedBy limit).Guarantees update refused post known := by
  induction activity generalizing known with
  | done outcome => exact guarantee
  | suspended => trivial
  | tell event rest ih =>
      cases event with
      | note record => exact ih guarantee
      | progress pending => exact ⟨guarantee.1, ih guarantee.2⟩
  | clock resume ih => exact fun now => ih now (guarantee now)
  | ask query deadline resume ih =>
      have resumed : ∀ reply, (∀ failure ∈ query.refusal? reply, refused failure) →
          ((resume reply).boundedBy limit).Guarantees update refused post known :=
        fun reply allowed => ih reply (guarantee reply allowed)
      have notRefused : ∀ failure ∈ query.refusal? .cancelled, refused failure := by simp
      have expired : (resume .cancelled).expire.Guarantees update refused post known :=
        expire takes (guarantee .cancelled notRefused)
      -- Only the reply at the deadline is another one than without it.
      have limited : ∀ rest : Reply query.Answer → Activity α,
          rest .expired = (resume .cancelled).expire →
          (∀ value, rest (.answer value) = (resume (.answer value)).boundedBy limit) →
          rest .cancelled = (resume .cancelled).boundedBy limit →
          ∀ reply, (∀ failure ∈ query.refusal? reply, refused failure) →
            (rest reply).Guarantees update refused post known := by
        intro rest atDeadline answered cancelled reply allowed
        cases reply with
        | expired =>
            rw [atDeadline]
            exact expired
        | answer value =>
            rw [answered]
            exact resumed (.answer value) allowed
        | cancelled =>
            rw [cancelled]
            exact resumed .cancelled allowed
      cases deadline with
      | none =>
          rw [Activity.boundedBy]
          exact limited _ rfl (fun _ => rfl) rfl
      | some own =>
          rw [Activity.boundedBy]
          split
          · exact resumed
          · exact limited _ rfl (fun _ => rfl) rfl

theorem bounded (guarantee : activity.Guarantees update refused post known)
    (deadline : Option Rat) : (activity.bounded deadline).Guarantees update refused post known := by
  cases deadline with
  | none => exact guarantee
  | some limit => exact guarantee.boundedBy takes limit

end Deadlines

theorem of_run {activity : Activity α} {start stop : Rat} {labels : List Label} {ending : Ending α}
    (guarantee : activity.Guarantees update refused post known)
    (run : Run activity start labels ending stop)
    (refusals : ∀ call ∈ calls labels, ∀ failure, call.answer = some (.error failure) →
      refused failure) :
    List.IsChain update (known :: progress labels) ∧
      ∀ outcome, ending = .ended outcome → post (knownAfter known labels) outcome := by
  induction run generalizing known with
  | done =>
      refine ⟨.singleton known, ?_⟩
      rintro outcome ⟨⟩
      exact guarantee
  | suspended => exact ⟨.singleton known, by simp⟩
  | @tell event rest now stop labels ending next ih =>
      cases event with
      | note record => exact ih guarantee refusals
      | progress pending =>
          rcases ih guarantee.2 refusals with ⟨chain, ends⟩
          refine ⟨.cons_cons guarantee.1 chain, fun outcome ended => ?_⟩
          have sameKnown : knownAfter known (.told now (.progress pending) :: labels) =
              knownAfter pending labels := List.getLastD_cons ..
          rw [sameKnown]
          exact ends outcome ended
  | clock next ih => exact ih (guarantee _) refusals
  | @late query limit resume now stop labels ending passed next ih =>
      have notRefused : ∀ failure ∈ query.refusal? .expired, refused failure := by simp
      exact ih (guarantee .expired notRefused) refusals
  | @ask query deadline resume reply now moment stop labels ending early closes next ih =>
      have split : calls (.asked query now moment reply :: labels) =
          calls [.asked query now moment reply] ++ calls labels := calls_append [_] labels
      rw [split] at refusals
      refine ih (guarantee reply fun failure refusal => ?_) fun call member =>
        refusals call (List.mem_append_right _ member)
      cases query with
      | call method params =>
          rcases reply with (failure | value) | _ | _
          · cases refusal
            exact refusals ⟨method, params, some (.error failure)⟩ (by simp [calls, Label.call?])
              failure rfl
          · cases refusal
          · cases refusal
          · cases refusal
      | _ => cases refusal
  | stuck endless => exact ⟨.singleton known, by simp⟩

end Guarantees

end Activity

end ContractClient
