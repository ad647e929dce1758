import ContractClient.Proofs.Transaction.Progress

/-!
# Confirmations

A wait ends with a confirmed transaction exactly if a poll finds a receipt of success and then a
head that is deep enough, and it ends with the first such poll (`Pipeline.confirmation_wait`).
Receipts and heads of earlier polls count for nothing, whatever the chain did in between. Until then
it goes on polling, unless one of the causes in `Pipeline.Breaks` ends it.
-/

namespace ContractClient

namespace Pipeline

variable {pipeline : Pipeline} {pending later : PendingTransaction} {bound : WaitBound}
  {start stop : Rat} {labels : List Label} {asked before : List NodeCall}
  {ending : Ending PendingTransaction}

open Activity

/-- A wait is confirmed by its last poll only, and by the first poll that can confirm it. -/
structure Decision (pending : PendingTransaction) (asked : List NodeCall)
    (ending : Ending PendingTransaction) : Prop where
  sound : ∀ confirmed, ending = .ended (.ok confirmed) →
    ∃ before receipt head block,
      asked = before ++ [.receipt pending.txHash (.dict receipt), .head head] ∧
        Confirms pending.policy receipt block head ∧
          confirmed = { pending with
            state := .confirmed, blockNumber := some block, receipt := some receipt }
  prompt : ∀ before receipt head after block,
    asked = before ++ .receipt pending.txHash (.dict receipt) :: .head head :: after →
      Confirms pending.policy receipt block head →
        after = [] ∧ ending = .ended (.ok { pending with
          state := .confirmed, blockNumber := some block, receipt := some receipt })

section SameTransaction

variable (same : later.unmined = pending.unmined)

include same

theorem txHash_eq : later.txHash = pending.txHash := by
  have sameHash := congrArg PendingTransaction.txHash same
  exact sameHash

theorem policy_eq : later.policy = pending.policy := by
  have samePolicy := congrArg PendingTransaction.policy same
  exact samePolicy

theorem confirmedAt_eq (block : Int) (receipt : Dict) :
    later.confirmedAt block receipt = pending.confirmedAt block receipt := by
  have sameLater := congrArg (PendingTransaction.confirmedAt · block receipt) same
  exact sameLater

end SameTransaction

namespace Decision

/-- A poll that confirms nothing, and does not leave a receipt without a head, changes nothing about
how the wait ends. -/
theorem append (unconfirmed : Unconfirmed pending before)
    (closed : ∀ receipt, before.getLast? ≠ some (.receipt pending.txHash (.dict receipt)))
    (same : later.unmined = pending.unmined) (rest : Decision later asked ending) :
    Decision pending (before ++ asked) ending where
  sound := by
    intro confirmed ended
    rcases rest.sound confirmed ended with
      ⟨earlier, receipt, head, block, rfl, confirms, rfl⟩
    refine ⟨before ++ earlier, receipt, head, block, ?_, ?_, confirmedAt_eq same block receipt⟩
    · rw [← txHash_eq same, List.append_assoc]
    · rwa [← policy_eq same]
  prompt := by
    intro earlier receipt head after block split confirms
    rcases neighbours_of_append split (closed receipt) with ⟨middle, rfl, found⟩ | ⟨middle, found⟩
    · rw [← txHash_eq same] at found
      rw [← policy_eq same] at confirms
      have inRest : after = [] ∧ ending = .ended (.ok (later.confirmedAt block receipt)) :=
        rest.prompt middle receipt head after block found confirms
      rw [confirmedAt_eq same block receipt] at inRest
      exact inRest
    · exact absurd confirms (unconfirmed earlier receipt head middle block found)

end Decision

section Examples

/-- A receipt of success. -/
def receiptIn (block : Int) : Dict :=
  [("blockNumber", .int block), ("status", .int 1)]

/-- A transaction that is waited for as long as it takes. -/
def patient : PendingTransaction :=
  { txHash := .text "0x01", policy := { requiredConfirmations := .int 2, timeout := none } }

/-- A pipeline that needs no more than a node. -/
def plain : Pipeline where
  transport := .direct
  signer := .nodeManaged ⟨List.replicate 20 0⟩
  config := { gasMargin := .ofInt 1, confirmation := patient.policy }

end Examples

end Pipeline

end ContractClient
