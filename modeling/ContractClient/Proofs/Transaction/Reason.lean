import ContractClient.Proofs.Transaction.Aftermath

/-!
# Reasons of reverts

A wait learns a reason only for a transaction that it reports as failed, and never takes one back:
at every moment the transaction has failed or the reason is the one from before the wait
(`PendingTransaction.KeepsReason`). So a reason is left over from an earlier wait whenever the
transaction turns out not to have failed, after the chain was reorganised
(`Pipeline.reason_stays`).
-/

namespace ContractClient

/-- An activity waits after the labels that were seen, or has come to its end. -/
def Pauses (labels seen : List Label) : Prop :=
  ∃ rest, labels = seen ++ rest ∧ ∀ label ∈ rest.head?, ¬label.IsTold

namespace PendingTransaction

variable {pending known next : PendingTransaction}

/-- Only a transaction that has failed has a reason to fail. -/
def ReasonBelongs (known : PendingTransaction) : Prop :=
  known.revertReason ≠ none → known.state = .reverted

/-- A transaction has failed, or what is known of a reason has not changed. -/
def KeepsReason (pending known : PendingTransaction) : Prop :=
  known.state = .reverted ∨ known.revertReason = pending.revertReason

theorem IsOpen.ne_reverted (isOpen : known.IsOpen) : known.state ≠ .reverted := by
  rcases isOpen with submitted | mined
  · simp [submitted]
  · simp [mined]

theorem Update.keepsReason (update : Update known next) (keeps : pending.KeepsReason known) :
    pending.KeepsReason next := by
  cases update with
  | lost isOpen => exact Or.inr (keeps.resolve_left isOpen.ne_reverted)
  | found isOpen read => exact Or.inr (keeps.resolve_left isOpen.ne_reverted)
  | confirmed mined => exact Or.inr (keeps.resolve_left (by simp [mined]))
  | reverted mined => exact Or.inl rfl
  | explained reverted => exact Or.inl reverted
  | expired isOpen => exact Or.inr (keeps.resolve_left isOpen.ne_reverted)

theorem Update.txHash_eq (update : Update known next) : next.txHash = known.txHash := by
  cases update <;> rfl

end PendingTransaction

namespace Pipeline

variable {pipeline : Pipeline} {pending : PendingTransaction} {rounds : Nat} {start stop : Rat}
  {labels seen : List Label} {ending : Ending PendingTransaction}

open Activity PendingTransaction

theorem isChain_progress
    (run : Run (pipeline.onNode.wait pending rounds) start labels ending stop) :
    List.IsChain Update (pending.reopened :: progress labels) := by
  have upholds : Upholds Update (fun _ => True) Returns (pipeline.onNode.wait pending rounds)
      pending.reopened := upholds_wait fun _ _ _ => trivial
  exact (upholds.of_run run fun _ _ _ _ => trivial).1

/-- What every update preserves holds at every moment of a wait. -/
theorem knownAfter_induction {good : PendingTransaction → Prop} (atFirst : good pending)
    (reopened : good pending.reopened)
    (step : ∀ known next, Update known next → good known → good next)
    (run : Run (pipeline.onNode.wait pending rounds) start labels ending stop)
    (before : seen <+: labels) : good (knownAfter pending seen) := by
  rcases knownAfter_eq_or_mem pending seen with same | published
  · rwa [same]
  · have all := (isChain_progress run).induction good _ step fun _ => reopened
    rcases before with ⟨rest, rfl⟩
    apply all
    rw [progress_append]
    exact List.mem_cons_of_mem _ (List.mem_append_left _ published)

theorem keepsReason_wait
    (run : Run (pipeline.onNode.wait pending rounds) start labels ending stop)
    (before : seen <+: labels) : pending.KeepsReason (knownAfter pending seen) :=
  knownAfter_induction (Or.inr rfl) (Or.inr rfl) (fun _ _ => Update.keepsReason) run before

theorem txHash_knownAfter
    (run : Run (pipeline.onNode.wait pending rounds) start labels ending stop) :
    (knownAfter pending labels).txHash = pending.txHash := by
  have step : ∀ known next, Update known next → known.txHash = pending.txHash →
      next.txHash = pending.txHash := fun _ _ update same => update.txHash_eq.trans same
  refine knownAfter_induction ?_ ?_ step run List.prefix_rfl <;> rfl

/-- A wait for a transaction has left it as failed, and for a reason. -/
def FailedFor (txHash : Value) (reason : String) : Prop :=
  ∃ (pipeline : Pipeline) (pending : PendingTransaction) (rounds : Nat) (start stop : Rat)
    (labels : List Label) (ending : Ending PendingTransaction), pending.Life ∧
      Run (pipeline.onNode.wait pending rounds) start labels ending stop ∧
        (knownAfter pending labels).txHash = txHash ∧
          (knownAfter pending labels).state = .reverted ∧
            (knownAfter pending labels).revertReason = some reason

theorem revertReason_of_submit {raw : Bytes} {policy : Option ConfirmationPolicy}
    {request : Option TransactionRequest}
    (run : Run (pipeline.submit raw policy request) start labels (.ended (.ok pending)) stop) :
    pending.revertReason = none := by
  rcases Run.bind_inv run with ⟨txHash, _, _, _, _, notedRun, _⟩ | ⟨_, _, abandons⟩
  · rcases Run.emit_bind_inv notedRun with ⟨_, doneRun, _⟩
    cases (Run.done_inv doneRun).2.1
    rfl
  · cases abandons

/-- Every reason was found by a wait that left the transaction as failed. -/
theorem failedFor_of_life {reason : String} (life : pending.Life)
    (known : pending.revertReason = some reason) : FailedFor pending.txHash reason := by
  induction life with
  | submitted run =>
      rw [revertReason_of_submit run] at known
      cases known
  | redirected life policy ih => exact ih known
  | @waited pipeline earlier rounds start stop labels ending life run ih =>
      rcases keepsReason_wait run List.prefix_rfl with reverted | kept
      · exact ⟨pipeline, earlier, rounds, start, stop, labels, ending, life, run, rfl, reverted,
          known⟩
      · rw [txHash_knownAfter run]
        exact ih (kept.symm.trans known)

/-- The reason that a transaction has before a wait stays with it whatever becomes of it. So a wait
shows a reason of a transaction that has not failed exactly if there was a reason before and the
transaction turns out not to have failed. Such a reason was found by an earlier wait. -/
theorem reason_stays (life : pending.Life)
    (run : Run (pipeline.onNode.wait pending rounds) start labels ending stop) :
    ((∀ seen, Pauses labels seen → (knownAfter pending seen).ReasonBelongs) ↔
        pending.revertReason = none ∨
          ∀ seen, Pauses labels seen → (knownAfter pending seen).state = .reverted) ∧
      (∀ seen, seen <+: labels → (knownAfter pending seen).state ≠ .reverted →
        (knownAfter pending seen).revertReason = pending.revertReason) ∧
        ∀ reason, pending.revertReason = some reason → FailedFor pending.txHash reason := by
  have kept : ∀ seen, seen <+: labels → (knownAfter pending seen).state ≠ .reverted →
      (knownAfter pending seen).revertReason = pending.revertReason :=
    fun seen before unreverted => (keepsReason_wait run before).resolve_left unreverted
  have before : ∀ seen, Pauses labels seen → seen <+: labels := by
    rintro seen ⟨rest, rfl, _⟩
    exact List.prefix_append seen rest
  refine ⟨⟨?_, ?_⟩, kept, fun reason => failedFor_of_life life⟩
  · intro belongs
    rcases Option.eq_none_or_eq_some pending.revertReason with unknown | ⟨reason, known⟩
    · exact Or.inl unknown
    · refine Or.inr fun seen pauses => ?_
      by_contra unreverted
      have stays := kept seen (before seen pauses) unreverted
      exact unreverted (belongs seen pauses (by simp [stays, known]))
  · rintro (unknown | reverted) seen pauses hasReason
    · by_contra unreverted
      exact hasReason ((kept seen (before seen pauses) unreverted).trans unknown)
    · exact reverted seen pauses

section Examples

/-- The transaction has failed in block 10, and the reason is known. -/
def impoverished : PendingTransaction :=
  { replayable.minedAt 10 (failedIn 10) with
    state := .reverted, revertReason := some "no funds" }

theorem life_impoverished : impoverished.Life := by
  have life : replayable.Life := by
    have reaches : Reaches (plain.onNode.submit [] (some patient.policy) (some {})) 0
        [⟨"eth_sendRawTransaction", [.text (Data.ofBytes [])], some (.ok patient.txHash)⟩]
        (.ended (.ok replayable)) := .call (.tell .done)
    rcases reaches with ⟨labels, stop, run, _⟩
    exact .submitted run
  have run : Run (explained.onNode.wait replayable 1) 0 _ _ 0 :=
    .clock (.call (.ok (.dict (failedIn 10))) (.tell (.tell (.tell
      (.call (.error (.fault refusal)) (.tell (.tell .done)))))))
  exact .waited life run

/-- The block of the transaction leaves the chain, and in a later one the transaction succeeds. -/
theorem recovers : ∃ labels stop, Run (plain.onNode.wait impoverished 2) 0 labels
    (.ended (.ok (impoverished.confirmedAt 11 (receiptIn 11)))) stop ∧
      knownAfter impoverished labels = impoverished.confirmedAt 11 (receiptIn 11) := by
  have run : Run (plain.onNode.wait impoverished 2) 0 _ _ _ :=
    .clock (.call (.ok .null) (.tell (.sleep (.call (.ok (.dict (receiptIn 11))) (.tell (.tell
      (.call (.ok (.int 13)) (.tell (.tell .done)))))))))
  exact ⟨_, _, run, rfl⟩

theorem reason_stays_recovered : ∃ labels ending stop,
    Run (plain.onNode.wait impoverished 2) 0 labels ending stop ∧
      ¬∀ seen, Pauses labels seen → (knownAfter impoverished seen).ReasonBelongs := by
  rcases recovers with ⟨labels, stop, run, known⟩
  refine ⟨labels, _, stop, run, ?_⟩
  rw [(reason_stays life_impoverished run).1]
  rintro (unknown | reverted)
  · cases unknown
  · have last := reverted labels ⟨[], by simp, by simp⟩
    rw [known] at last
    cases last

/-- A transaction that has failed, was lost and then succeeded is confirmed with the reason of its
failure. -/
theorem not_reasonBelongs_of_recovered : ¬∀ (pipeline : Pipeline) (pending : PendingTransaction)
    (rounds : Nat) (start stop : Rat) (labels seen : List Label)
    (ending : Ending PendingTransaction), pending.Life →
      Run (pipeline.onNode.wait pending rounds) start labels ending stop →
        Pauses labels seen → (knownAfter pending seen).ReasonBelongs := by
  intro belongs
  rcases recovers with ⟨labels, stop, run, known⟩
  have last := belongs plain impoverished 2 0 stop labels labels _ life_impoverished run
    ⟨[], by simp, by simp⟩
  rw [known] at last
  exact absurd (last nofun) (by decide)

end Examples

end Pipeline

end ContractClient
