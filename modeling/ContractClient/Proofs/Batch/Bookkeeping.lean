import ContractClient.Proofs.Batch.History
import Mathlib.Data.List.Induction
import Mathlib.Data.List.Nodup
import Mathlib.Data.List.Perm.Basic

/-!
# The bookkeeping of a batch

`Batch.History.Bookkeeping` is what holds of a batch at every time, in whatever order requests are
enqueued, dropped and flushed (`Batch.History.bookkeeping_run`). It rests on three invariants, each
of which is kept by every step: `Batch.History.Numbered` says how requests are numbered,
`Batch.History.Slotted` where slots are, and `Batch.History.Routed` where values come from.
-/

namespace ContractClient

namespace Batch

section Requests

variable {slots more : List BatchSlot} {slot : BatchSlot}

theorem sentRequests_append :
    sentRequests (slots ++ more) = sentRequests slots ++ sentRequests more :=
  List.filterMap_append

theorem mem_sentRequests_iff {sent : SentRequest} :
    sent ∈ sentRequests slots ↔
      ∃ slot ∈ slots, slot.handle = sent.1 ∧ slot.request = some sent.2 := by
  simp only [sentRequests, List.mem_filterMap, Option.map_eq_some_iff]
  constructor
  · rintro ⟨slot, member, request, found, rfl⟩
    exact ⟨slot, member, rfl, found⟩
  · rintro ⟨slot, member, handle, found⟩
    exact ⟨slot, member, sent.2, found, by rw [handle]⟩

theorem map_fst_sentRequests_sublist :
    ((sentRequests slots).map Prod.fst).Sublist (slots.map BatchSlot.handle) := by
  induction slots with
  | nil => exact List.Sublist.refl _
  | cons slot slots ih =>
      cases found : slot.request with
      | none =>
          simp only [sentRequests, List.filterMap_cons, found, Option.map_none]
          exact ih.cons _
      | some request =>
          simp only [sentRequests, List.filterMap_cons, found, Option.map_some, List.map_cons]
          exact ih.cons_cons _

end Requests

/-- Items of several lists whose keys all differ are in the same list if they have the same key. -/
theorem eq_of_key_eq {α β : Type} {key : α → β} {lists : List (List α)}
    (distinct : (lists.flatten.map key).Nodup) {first second : Nat} {left right : List α}
    (atFirst : lists[first]? = some left) (atSecond : lists[second]? = some right) {one other : α}
    (inLeft : one ∈ left) (inRight : other ∈ right) (same : key one = key other) :
    first = second := by
  rw [List.map_flatten, List.nodup_flatten] at distinct
  have apart := List.pairwise_iff_getElem.mp distinct.2
  rcases List.getElem?_eq_some_iff.mp atFirst with ⟨firstBound, rfl⟩
  rcases List.getElem?_eq_some_iff.mp atSecond with ⟨secondBound, rfl⟩
  have inFirst := List.mem_map_of_mem (f := key) inLeft
  have inSecond := List.mem_map_of_mem (f := key) inRight
  rw [← same] at inSecond
  rcases Nat.lt_trichotomy first second with before | equal | after
  · have disjoint := apart first second (by simpa using firstBound) (by simpa using secondBound)
      before
    exact absurd inSecond (disjoint (by simpa using inFirst) <| by simpa using ·)
  · exact equal
  · have disjoint := apart second first (by simpa using secondBound) (by simpa using firstBound)
      after
    exact absurd inFirst (disjoint (by simpa using inSecond) <| by simpa using ·)

namespace History

variable {history : History}

/-- Requests are numbered in the order in which they were enqueued. -/
structure Numbered (history : History) : Prop where
  increasing : (sentRequests history.added).Pairwise fun earlier later =>
    earlier.2.id < later.2.id
  below : ∀ sent ∈ sentRequests history.added, sent.2.id < history.batch.nextId

theorem Numbered.perform (numbered : Numbered history) (action : Action) :
    Numbered (history.perform action) := by
  cases action with
  | enqueue method params =>
      rw [perform_enqueue]
      constructor
      · rw [sentRequests_append, List.pairwise_append]
        refine ⟨numbered.increasing, List.pairwise_singleton _ _, ?_⟩
        intro earlier member later last
        rw [List.mem_singleton.mp last]
        exact numbered.below earlier member
      · intro sent member
        rw [sentRequests_append, List.mem_append] at member
        rcases member with earlier | last
        · have lower := numbered.below sent earlier
          change sent.2.id < history.batch.nextId + 1
          omega
        · rw [List.mem_singleton.mp last]
          exact Int.lt_succ history.batch.nextId
  | enqueueFailed failure =>
      rw [perform_enqueueFailed]
      constructor
      · rw [sentRequests_append]
        exact (List.append_nil _).symm ▸ numbered.increasing
      · rw [sentRequests_append]
        exact (List.append_nil _).symm ▸ numbered.below
  | discard => exact ⟨numbered.increasing, numbered.below⟩
  | beginFlush => exact ⟨numbered.increasing, numbered.below⟩
  | endFlush number reply =>
      rcases perform_endFlush history number reply with same | ⟨flush, _, _, ended⟩
      · rwa [same]
      · rw [ended]
        exact ⟨numbered.increasing, numbered.below⟩

/-- Every slot has a handle of its own and is in one place, in the order in which it was added. -/
structure Slotted (history : History) : Prop where
  handles : history.added.map BatchSlot.handle = List.range history.batch.handles.length
  placed : history.places.flatten.Perm history.added
  ordered : ∀ place ∈ history.places, place.Sublist history.added
  requests : ∀ flush ∈ history.flushes, flush.requests = sentRequests flush.slots
  failed : history.failed =
    (history.added.filter fun slot => slot.request.isNone).map BatchSlot.handle

namespace Slotted

/-- A slot is added at the end, under a new handle. -/
theorem add (slotted : Slotted history) (slot : BatchSlot)
    (fresh : slot.handle = history.batch.handles.length) (nextId : Int) (state : HandleState) :
    Slotted { history with
      batch := {
        nextId
        pending := history.batch.pending ++ [slot]
        handles := history.batch.handles ++ [state] }
      added := history.added ++ [slot]
      failed := history.failed ++ if slot.request.isNone then [slot.handle] else [] } where
  handles := by
    rw [List.map_append, slotted.handles, List.length_append, List.length_singleton,
      List.range_succ, List.map_singleton, fresh]
  placed := by
    have swapped : (history.batch.pending ++ ([slot] ++
        (history.flushes.map Flush.slots ++ history.discards).flatten)).Perm
          (history.places.flatten ++ [slot]) := by
      rw [places, List.flatten_cons, List.append_assoc]
      exact List.perm_append_comm.append_left _
    rw [← List.append_assoc] at swapped
    exact swapped.trans (slotted.placed.append_right [slot])
  ordered := by
    intro place member
    rcases List.mem_cons.mp member with rfl | other
    · have pending := slotted.ordered history.batch.pending List.mem_cons_self
      exact pending.append (List.Sublist.refl [slot])
    · have earlier := slotted.ordered place (List.mem_cons_of_mem _ other)
      exact earlier.trans (List.sublist_append_left _ _)
  requests := slotted.requests
  failed := by
    rw [List.filter_append, List.map_append, slotted.failed]
    cases failedBefore : slot.request.isNone <;> simp [failedBefore]

/-- Slots may move to other places as a whole. -/
theorem move (slotted : Slotted history) {later : History} (added : later.added = history.added)
    (failed : later.failed = history.failed)
    (count : later.batch.handles.length = history.batch.handles.length)
    (placed : later.places.flatten.Perm history.places.flatten)
    (places : ∀ place ∈ later.places, place = [] ∨ place ∈ history.places)
    (requests : ∀ flush ∈ later.flushes, flush.requests = sentRequests flush.slots) :
    Slotted later where
  handles := by rw [added, count, slotted.handles]
  placed := by
    rw [added]
    exact placed.trans slotted.placed
  ordered := by
    intro place member
    rw [added]
    rcases places place member with rfl | earlier
    · exact List.nil_sublist _
    · exact slotted.ordered place earlier
  requests := requests
  failed := by rw [failed, added, slotted.failed]

theorem discard (slotted : Slotted history) : Slotted (history.perform .discard) := by
  refine slotted.move rfl rfl length_handles_resolve ?_ ?_ slotted.requests
  · change (history.flushes.map Flush.slots ++
      (history.discards ++ [history.batch.pending])).flatten.Perm history.places.flatten
    rw [← List.append_assoc, List.flatten_append, List.flatten_singleton]
    exact List.perm_append_comm
  · intro place member
    change place ∈ [] :: (history.flushes.map Flush.slots ++
      (history.discards ++ [history.batch.pending])) at member
    simp only [places, List.mem_cons, List.mem_append, List.not_mem_nil, or_false] at member ⊢
    tauto

theorem beginFlush (slotted : Slotted history) : Slotted (history.perform .beginFlush) := by
  refine slotted.move rfl rfl rfl ?_ ?_ ?_
  · change ((history.flushes ++ [_]).map Flush.slots ++ history.discards).flatten.Perm
      history.places.flatten
    rw [List.map_append, List.append_assoc, List.flatten_append, List.flatten_append, places,
      List.flatten_cons, List.flatten_append, List.map_singleton, List.flatten_singleton]
    exact List.perm_append_comm_assoc _ _ _
  · intro place member
    change place ∈ [] :: ((history.flushes ++ [_]).map Flush.slots ++ history.discards) at member
    simp only [places, List.map_append, List.mem_cons, List.mem_append, List.map_singleton,
      List.not_mem_nil, or_false] at member ⊢
    tauto
  · intro flush member
    rcases List.mem_append.mp member with earlier | new
    · exact slotted.requests flush earlier
    · rw [List.mem_singleton.mp new]

theorem endFlush (slotted : Slotted history) (number : Nat)
    (reply : Outcome (List RpcResponse)) :
    Slotted (history.perform (.endFlush number reply)) := by
  rcases perform_endFlush history number reply with same | ⟨flush, found, _, ended⟩
  · rwa [same]
  · have samePlaces : (history.perform (.endFlush number reply)).places = history.places := by
      have kept : (history.flushes.map Flush.slots).set number flush.slots =
          history.flushes.map Flush.slots := by
        apply List.ext_getElem?
        intro index
        rw [List.getElem?_set]
        split
        · next same =>
            rcases List.getElem?_eq_some_iff.mp found with ⟨bound, rfl⟩
            simp [← same, bound]
        · rfl
      rw [ended, places, places, List.map_set, kept]
      rfl
    refine slotted.move ?_ ?_ ?_ (by rw [samePlaces]) (by rw [samePlaces]; tauto) ?_
    · rw [ended]
    · rw [ended]
    · rw [ended]
      exact length_handles_resolve
    · rw [ended]
      intro other member
      rcases List.mem_or_eq_of_mem_set member with earlier | rfl
      · exact slotted.requests other earlier
      · exact slotted.requests flush (List.mem_of_getElem? found)

theorem perform (slotted : Slotted history) (action : Action) :
    Slotted (history.perform action) := by
  cases action with
  | enqueue method params =>
      rw [perform_enqueue]
      have added := slotted.add
        { handle := history.batch.handles.length
          request := some { id := history.batch.nextId, method, params } }
        rfl (history.batch.nextId + 1) .waiting
      simpa using added
  | enqueueFailed failure =>
      rw [perform_enqueueFailed]
      exact slotted.add ⟨_, none⟩ rfl history.batch.nextId (.resolved (.error failure))
  | discard => exact slotted.discard
  | beginFlush => exact slotted.beginFlush
  | endFlush number reply => exact slotted.endFlush number reply

theorem run (actions : List Action) : Slotted (run actions) := by
  refine run_induction ?_ (fun history action slotted => slotted.perform action) actions
  exact ⟨rfl, List.Perm.refl _, by simp [places], by simp, rfl⟩

theorem distinct (slotted : Slotted history) :
    (history.added.map BatchSlot.handle).Nodup := by
  rw [slotted.handles]
  exact List.nodup_range

theorem distinct_places (slotted : Slotted history) :
    (history.places.flatten.map BatchSlot.handle).Nodup :=
  (slotted.placed.map BatchSlot.handle).nodup_iff.mpr slotted.distinct

theorem flushes_sublist (flushes : List Flush)
    (requests : ∀ flush ∈ flushes, flush.requests = sentRequests flush.slots) :
    (flushes.flatMap fun flush => flush.requests.map Prod.fst).Sublist
      ((flushes.map Flush.slots).flatten.map BatchSlot.handle) := by
  induction flushes with
  | nil => exact List.Sublist.refl _
  | cons flush flushes ih =>
      have first : (flush.requests.map Prod.fst).Sublist (flush.slots.map BatchSlot.handle) := by
        rw [requests flush List.mem_cons_self]
        exact map_fst_sentRequests_sublist
      rw [List.flatMap_cons, List.map_cons, List.flatten_cons, List.map_append]
      exact first.append (ih fun flush member => requests flush (List.mem_cons_of_mem _ member))

/-- A request is sent at most once. -/
theorem sentOnce (slotted : Slotted history) :
    (history.flushes.flatMap fun flush => flush.requests.map Prod.fst).Nodup := by
  refine List.Nodup.sublist (flushes_sublist _ slotted.requests) ?_
  have distinct := slotted.distinct_places
  rw [places, List.flatten_cons, List.flatten_append, List.map_append, List.map_append] at distinct
  exact distinct.of_append_right.of_append_left

theorem inOrder (slotted : Slotted history) {flush : Flush} (member : flush ∈ history.flushes) :
    flush.requests.Sublist (sentRequests history.added) := by
  rw [slotted.requests flush member]
  refine List.Sublist.filterMap _ (slotted.ordered flush.slots ?_)
  exact List.mem_cons_of_mem _ (List.mem_append_left _ (List.mem_map_of_mem member))

end Slotted

/-- A handle is resolved by a value only through the reply to the batch of its own request. -/
def Routed (history : History) : Prop :=
  ∀ handle value, history.batch.handles[handle]? = some (.resolved (.ok value)) →
    ∃ flush ∈ history.flushes, ∃ responses, flush.reply = some (.ok responses) ∧
      Answers flush.requests responses handle value

/-- What is known of a handle among more handles was known before, or it is the new one. -/
theorem getElem?_append_singleton_eq_some {states : List HandleState} {new state : HandleState}
    {handle : Nat} (known : (states ++ [new])[handle]? = some state) :
    states[handle]? = some state ∨ new = state := by
  by_cases old : handle < states.length
  · rw [List.getElem?_append_left old] at known
    exact Or.inl known
  · rw [List.getElem?_append_right (Nat.le_of_not_lt old)] at known
    have member := List.mem_of_getElem? known
    exact Or.inr (List.mem_singleton.mp member).symm

theorem getElem?_append_of_some {states more : List HandleState} {state : HandleState}
    {handle : Nat} (known : states[handle]? = some state) :
    (states ++ more)[handle]? = some state := by
  rw [List.getElem?_append_left (List.getElem?_eq_some_iff.mp known).1, known]

theorem Routed.perform (routed : Routed history) (action : Action) :
    Routed (history.perform action) := by
  intro handle value resolved
  cases action with
  | enqueue method params =>
      rw [perform_enqueue] at resolved ⊢
      rcases getElem?_append_singleton_eq_some resolved with before | new
      · exact routed handle value before
      · cases new
  | enqueueFailed failure =>
      rw [perform_enqueueFailed] at resolved ⊢
      rcases getElem?_append_singleton_eq_some resolved with before | new
      · exact routed handle value before
      · cases new
  | discard =>
      rcases mem_of_getElem?_resolve resolved with before | dropped
      · exact routed handle value before
      · simp at dropped
  | beginFlush =>
      rcases routed handle value resolved with ⟨flush, member, answered⟩
      exact ⟨flush, List.mem_append_left _ member, answered⟩
  | endFlush number reply =>
      rcases perform_endFlush history number reply with same | ⟨flush, found, isOpen, ended⟩
      · rw [same] at resolved ⊢
        exact routed handle value resolved
      · rw [ended] at resolved ⊢
        have bound := (List.getElem?_eq_some_iff.mp found).1
        rcases mem_of_getElem?_resolve resolved with before | now
        · -- the reply that was given before is that of another flush
          rcases routed handle value before with ⟨other, member, responses, replied, answered⟩
          rcases List.mem_iff_getElem?.mp member with ⟨position, atPosition⟩
          have differs : number ≠ position := by
            rintro rfl
            rw [found, Option.some.injEq] at atPosition
            subst atPosition
            simp [Flush.isOpen, replied] at isOpen
          refine ⟨other, List.mem_of_getElem? (i := position) ?_, responses, replied, answered⟩
          rw [List.getElem?_set_ne differs, atPosition]
        · rcases answers_of_mem_conclude now with ⟨responses, rfl, answered⟩
          exact ⟨_, List.mem_set bound _, responses, rfl, answered⟩

end History

end Batch

end ContractClient
