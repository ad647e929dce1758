import ContractClient.Schema

/-!
# What is accepted of a model

A part of a model is read only if everything that it was read from is accepted: what is applied and
what it is applied to, what is changed, what is asked to satisfy a condition
(`Checked.require_eq_valid`), and what stands under a step of the path. A field is what was read for
it, or its default (`Schema.field_eq_valid`).
-/

namespace ContractClient

namespace Checked

variable {α β : Type}

theorem apply_eq_valid {change : Checked (α → β)} {part : Checked α} {result : β}
    (applied : change.apply part = .valid result) :
    ∃ function value, change = .valid function ∧ part = .valid value ∧ function value = result := by
  cases change <;> cases part <;> cases applied
  exact ⟨_, _, rfl, rfl, rfl⟩

theorem map_eq_valid {change : α → β} {part : Checked α} {result : β}
    (mapped : part.map change = .valid result) :
    ∃ value, part = .valid value ∧ change value = result := by
  cases part <;> cases mapped
  exact ⟨_, rfl, rfl⟩

theorem require_eq_valid {kind : IssueKind} {condition : α → Bool} {part : Checked α} {result : α}
    (accepted : part.require kind condition = .valid result) :
    part = .valid result ∧ condition result = true := by
  cases part with
  | invalid issues => cases accepted
  | valid value =>
      simp only [require, andThen] at accepted
      split at accepted <;> cases accepted
      exact ⟨rfl, ‹_›⟩

theorem under_eq_valid {step : PathStep} {part : Checked α} {result : α}
    (read : part.under step = .valid result) : part = .valid result := by
  cases part <;> cases read
  rfl

end Checked

namespace Schema

variable {α : Type} {read : Value → Checked α} {value : Value}

/-- A field has the value that was read for it, or else its default. -/
theorem field_eq_valid {entries : Dict} {name : String} {default result : α}
    (given : field entries name default read = .valid result) :
    (∃ value, Dict.get? entries name = some value ∧ read value = .valid result) ∨
      result = default := by
  unfold field at given
  split at given
  · next value found => exact Or.inl ⟨value, found, Checked.under_eq_valid given⟩
  · cases given
    exact Or.inr rfl

theorem optional_eq_valid {result : Option α} (given : optional read value = .valid result) :
    ∀ part ∈ result, read value = .valid part := by
  unfold optional at given
  split at given
  · cases given
    simp
  · rcases Checked.map_eq_valid given with ⟨part, accepted, rfl⟩
    simpa using accepted

theorem le_of_integerFrom {least number : Int} (given : integerFrom least value = .valid number) :
    least ≤ number :=
  of_decide_eq_true (Checked.require_eq_valid given).2

end Schema

end ContractClient
