import ContractClient.Proofs.Transaction.Poll
import Mathlib.Data.List.Chain

/-!
# Updates of a pending transaction

A wait changes what is known about a transaction in a few ways only (`PendingTransaction.Update`).
So what is known fits together at every moment (`PendingTransaction.Consistent`), and the state goes
one way (`TransactionState.Moves`). A failure that says how a wait has ended agrees with the state
(`PendingTransaction.Agrees`); most failures say nothing about it (`Outcome.Neutral`).
-/

namespace ContractClient

/-- How the state of a transaction changes during a wait. -/
inductive TransactionState.Moves : TransactionState → TransactionState → Prop where
  | stay {state : TransactionState} : Moves state state
  | mined : Moves .submitted .mined
  | lost : Moves .mined .submitted
  | confirmed : Moves .mined .confirmed
  | reverted : Moves .mined .reverted
  | expired {state : TransactionState} (isOpen : state = .submitted ∨ state = .mined) :
      Moves state .timedOut

namespace PendingTransaction

variable {known next : PendingTransaction}

/-- The block and the receipt of a transaction fit together, and are known if its state needs
them. -/
structure Coherent (pending : PendingTransaction) : Prop where
  paired : pending.blockNumber = none ↔ pending.receipt = none
  mined : pending.state = .mined ∨ pending.state = .confirmed ∨ pending.state = .reverted →
    ∃ receipt block, pending.receipt = some receipt ∧ pending.blockNumber = some block ∧
      blockOf receipt = .ok block

/-- The block, the receipt and the state of a transaction fit together. -/
structure Consistent (pending : PendingTransaction) : Prop extends Coherent pending where
  unmined : pending.state = .submitted → pending.blockNumber = none ∧ pending.receipt = none

/-- The wait for a transaction is not over. -/
def IsOpen (pending : PendingTransaction) : Prop :=
  pending.state = .submitted ∨ pending.state = .mined

/-- A transaction as a wait takes it up: as if nothing was known of its state. -/
def reopened (pending : PendingTransaction) : PendingTransaction :=
  { pending with state := .submitted }

/-- How a wait changes what is known about a transaction. -/
inductive Update : PendingTransaction → PendingTransaction → Prop where
  | lost {known : PendingTransaction} (isOpen : known.IsOpen) : Update known known.unmined
  | found {known : PendingTransaction} {receipt : Dict} {block : Int} (isOpen : known.IsOpen)
      (read : blockOf receipt = .ok block) : Update known (known.minedAt block receipt)
  | confirmed {known : PendingTransaction} (mined : known.state = .mined) :
      Update known { known with state := .confirmed }
  | reverted {known : PendingTransaction} (mined : known.state = .mined) :
      Update known { known with state := .reverted }
  | explained {known : PendingTransaction} {reason : Option String}
      (reverted : known.state = .reverted) : Update known { known with revertReason := reason }
  | expired {known : PendingTransaction} (isOpen : known.IsOpen) :
      Update known { known with state := .timedOut }

theorem Update.moves (update : Update known next) :
    TransactionState.Moves known.state next.state := by
  cases update with
  | lost isOpen =>
      rcases isOpen with submitted | mined
      · rw [submitted]
        exact .stay
      · rw [mined]
        exact .lost
  | found isOpen read =>
      rcases isOpen with submitted | mined
      · rw [submitted]
        exact .mined
      · rw [mined]
        exact .stay
  | confirmed mined =>
      rw [mined]
      exact .confirmed
  | reverted mined =>
      rw [mined]
      exact .reverted
  | explained reverted => exact .stay
  | expired isOpen => exact .expired isOpen

/-- A wait that takes up a transaction may find a block from an earlier one. -/
theorem Consistent.coherent_reopened (consistent : Consistent known) : Coherent known.reopened :=
  ⟨consistent.paired, by rintro (same | same | same) <;> cases same⟩

theorem Update.consistent (update : Update known next) (coherent : Coherent known) :
    Consistent next := by
  cases update with
  | lost isOpen =>
      refine ⟨⟨by simp [unmined], ?_⟩, fun _ => ⟨rfl, rfl⟩⟩
      rintro (same | same | same) <;> cases same
  | found isOpen read => exact ⟨⟨by simp [minedAt], fun _ => ⟨_, _, rfl, rfl, read⟩⟩, nofun⟩
  | confirmed mined => exact ⟨⟨coherent.paired, fun _ => coherent.mined (Or.inl mined)⟩, nofun⟩
  | reverted mined => exact ⟨⟨coherent.paired, fun _ => coherent.mined (Or.inl mined)⟩, nofun⟩
  | explained reverted =>
      refine ⟨⟨coherent.paired, fun _ => coherent.mined (Or.inr (Or.inr reverted))⟩, ?_⟩
      intro submitted
      rw [reverted] at submitted
      cases submitted
  | expired isOpen =>
      refine ⟨⟨coherent.paired, ?_⟩, nofun⟩
      rintro (same | same | same) <;> cases same

theorem consistent_of_isChain {updates : List PendingTransaction}
    (chain : List.IsChain Update (known :: updates)) (coherent : Coherent known) :
    ∀ next ∈ updates, Consistent next := by
  induction updates generalizing known with
  | nil => simp
  | cons first updates ih =>
      rcases List.isChain_cons_cons.mp chain with ⟨update, rest⟩
      have consistent := update.consistent coherent
      exact List.forall_mem_cons.mpr ⟨consistent, ih rest consistent.toCoherent⟩

/-- A failure that says how a wait has ended agrees with what is known. -/
def Agrees (known : PendingTransaction) : Failure → Prop
  | .fault fault =>
    (fault.kind = .confirmationTimeout → known.state = .timedOut) ∧
      (fault.kind = .transactionReverted → known.state = .reverted)
  | _ => True

end PendingTransaction

/-- No failure of a computation says how a wait has ended. -/
def Outcome.Neutral {α : Type} (outcome : Outcome α) : Prop :=
  ∀ failure, outcome = .error failure → ∀ known : PendingTransaction, known.Agrees failure

namespace Outcome

variable {α : Type}

theorem neutral_ok {value : α} : Neutral (.ok value : Outcome α) :=
  nofun

theorem neutral_condition {met : Condition} {text : String} :
    Neutral (.error (.condition met text) : Outcome α) := by
  rintro _ ⟨⟩ known
  trivial

theorem neutral_validation {message : String} {details : Dict} :
    Neutral (Outcome.fault (.validation message details) : Outcome α) := by
  rintro _ ⟨⟩ known
  exact ⟨nofun, nofun⟩

theorem neutral_bind {β : Type} {first : Outcome α} {next : α → Outcome β}
    (neutral : Neutral first) (neutralNext : ∀ value, Neutral (next value)) :
    Neutral (first >>= next) := by
  cases first with
  | ok value => exact neutralNext value
  | error failure =>
      rintro _ ⟨⟩
      exact neutral failure rfl

theorem neutral_toInt {value : Value} : Neutral (Quantity.toInt value) := by
  unfold Quantity.toInt
  split
  · exact neutral_ok
  · split
    · exact neutral_ok
    · exact neutral_validation
  · exact neutral_validation

theorem neutral_ofValue {value : Value} : Neutral (Quantity.ofValue value) := by
  unfold Quantity.ofValue
  split
  · split
    · exact neutral_validation
    · exact neutral_ok
  · exact neutral_validation

theorem neutral_toBinary64 {numeral : Numeral} : Neutral numeral.toBinary64 := by
  cases numeral with
  | int whole =>
      unfold Numeral.toBinary64 Numeral.roundInt
      dsimp only
      split
      · exact neutral_ok
      · exact neutral_condition
  | float number => exact neutral_ok

theorem neutral_add {left right : Numeral} : Neutral (left.add right) := by
  unfold Numeral.add
  split
  · exact neutral_ok
  · exact neutral_bind neutral_toBinary64 fun _ =>
      neutral_bind neutral_toBinary64 fun _ => neutral_ok

theorem neutral_isReached {policy : ConfirmationPolicy} {block head : Int} :
    Neutral (policy.isReached block head) := by
  have counts : Neutral (Numeral.ofValue policy.requiredConfirmations) := by
    unfold Numeral.ofValue
    split
    · exact neutral_ok
    · exact neutral_ok
    · exact neutral_ok
    · exact neutral_condition
  exact neutral_bind counts fun _ => neutral_bind neutral_add fun _ => neutral_ok

theorem neutral_member {value : Value} {key : String} : Neutral (value.member key) := by
  unfold Value.member
  split
  · split
    · exact neutral_ok
    · exact neutral_condition
  · exact neutral_condition

theorem neutral_lookup {value default : Value} {key : String} :
    Neutral (value.lookup key default) := by
  unfold Value.lookup
  split
  · exact neutral_ok
  · exact neutral_condition

end Outcome

end ContractClient
