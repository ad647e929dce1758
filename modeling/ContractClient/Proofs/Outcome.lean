import ContractClient.Failure
import Mathlib.Data.List.Forall2

/-!
# Computations that may fail

How a sequence of computations that may fail ends: with a result exactly if all of them have one
(`Outcome.bind_eq_ok_iff`), and with the failure of the first one that has none. The same
computation for every item of a list has results exactly if every item has one
(`Outcome.mapM_eq_ok_iff`).
-/

namespace ContractClient.Outcome

variable {ε α β : Type}

@[simp]
theorem ok_bind (value : α) (next : α → Except ε β) : (Except.ok value >>= next) = next value :=
  rfl

@[simp]
theorem error_bind (error : ε) (next : α → Except ε β) :
    (Except.error error >>= next) = Except.error error :=
  rfl

@[simp]
theorem pure_eq_ok (value : α) : (pure value : Except ε α) = Except.ok value :=
  rfl

theorem bind_eq_ok_iff {computation : Except ε α} {next : α → Except ε β} {result : β} :
    (computation >>= next) = .ok result ↔
      ∃ value, computation = .ok value ∧ next value = .ok result := by
  cases computation with
  | error error => simp
  | ok value => simp

theorem toOption_eq_some_iff {computation : Except ε α} {result : α} :
    computation.toOption = some result ↔ computation = .ok result := by
  cases computation <;> simp [Except.toOption]

theorem mapM_eq_ok_iff {computation : α → Except ε β} {items : List α} {results : List β} :
    items.mapM computation = .ok results ↔
      List.Forall₂ (fun item result => computation item = .ok result) items results := by
  induction items generalizing results with
  | nil => simp [eq_comm]
  | cons item items ih =>
      simp only [List.mapM_cons, bind_eq_ok_iff, List.forall₂_cons_left_iff, ih, pure_eq_ok,
        Except.ok.injEq]
      constructor
      · rintro ⟨result, first, results, others, rfl⟩
        exact ⟨result, results, first, others, rfl⟩
      · rintro ⟨result, results, first, others, rfl⟩
        exact ⟨result, first, results, others, rfl⟩

theorem mapM_take {computation : α → Except ε β} {items : List α} {results : List β}
    (all : items.mapM computation = .ok results) (count : Nat) :
    (items.take count).mapM computation = .ok (results.take count) :=
  mapM_eq_ok_iff.mpr (List.forall₂_take count (mapM_eq_ok_iff.mp all))

theorem exists_of_mem_mapM {computation : α → Except ε β} {items : List α} {results : List β}
    (all : items.mapM computation = .ok results) {result : β} (member : result ∈ results) :
    ∃ item ∈ items, computation item = .ok result := by
  have each := mapM_eq_ok_iff.mp all
  clear all
  induction each with
  | nil => cases member
  | @cons item first items results read _ ih =>
      rcases List.mem_cons.mp member with rfl | member
      · exact ⟨item, List.mem_cons_self, read⟩
      · rcases ih member with ⟨other, inside, readOther⟩
        exact ⟨other, List.mem_cons_of_mem _ inside, readOther⟩

/-- The first item that has no result decides how all of them fail. -/
theorem mapM_eq_error_of_first {computation : α → Except ε β} {earlier later : List α} {item : α}
    {results : List β} {error : ε} (before : earlier.mapM computation = .ok results)
    (failed : computation item = .error error) :
    (earlier ++ item :: later).mapM computation = .error error := by
  simp [List.mapM_append, before, failed]

section Refusals

variable {fault : Fault} {met : Condition} {next : α → Outcome β} {rest : Outcome α} {result : α}
  {refused : Prop} [Decidable refused]

@[simp]
theorem fault_bind : ((Outcome.fault fault : Outcome α) >>= next) = Outcome.fault fault :=
  rfl

@[simp]
theorem condition_bind : ((Outcome.condition met : Outcome α) >>= next) = Outcome.condition met :=
  rfl

@[simp]
theorem fault_ne_ok : Outcome.fault fault ≠ .ok result :=
  nofun

@[simp]
theorem condition_ne_ok : Outcome.condition met ≠ .ok result :=
  nofun

/-- What is refused has no result; what is not goes on. -/
theorem refuse_eq_ok_iff {failure : Failure} :
    (if refused then Except.error failure else rest) = .ok result ↔
      ¬refused ∧ rest = .ok result := by
  split <;> simp [*]

theorem refuse_fault_eq_ok_iff :
    (if refused then Outcome.fault fault else rest) = .ok result ↔
      ¬refused ∧ rest = .ok result :=
  refuse_eq_ok_iff

theorem refuse_condition_eq_ok_iff :
    (if refused then Outcome.condition met else rest) = .ok result ↔
      ¬refused ∧ rest = .ok result :=
  refuse_eq_ok_iff

end Refusals

end ContractClient.Outcome
