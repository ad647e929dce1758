import ContractClient.Proofs.Activity.Guarantee
import ContractClient.Proofs.Transaction.Confirmation
import ContractClient.Proofs.Transaction.Revert
import ContractClient.Proofs.Transaction.Update

/-!
# Lives of transactions

Every step of a wait changes what is known about a transaction as updates may, and ends with a
failure only if the failure agrees with the state or came from elsewhere (`Pipeline.Upholds`). So
over the whole life of a transaction what is known fits together at every moment of every wait, and
a wait that reports a timeout or a failed transaction has set the state accordingly, unless the
report came from the node or from the decoder of reasons (`Pipeline.wait_observed`).
-/

namespace ContractClient

namespace Pipeline

variable {α β : Type} {pipeline : Pipeline} {pending known : PendingTransaction}
  {bound : WaitBound} {refused : Failure → Prop}

open Activity PendingTransaction

/-- How a step of a wait ends: with a result that is good at what is known, with a failure that
agrees with what is known, or with a failure that came from elsewhere. -/
def Concludes (refused : Failure → Prop) (good : PendingTransaction → α → Prop)
    (known : PendingTransaction) : Outcome α → Prop
  | .ok result => good known result
  | .error failure => refused failure ∨ known.Agrees failure

/-- A step changes what is known as updates may, and ends as steps of a wait do. -/
def Upholds (update : PendingTransaction → PendingTransaction → Prop) (refused : Failure → Prop)
    (good : PendingTransaction → α → Prop) (step : Activity α) (known : PendingTransaction) :
    Prop :=
  step.Guarantees update refused (Concludes refused good) known

/-- A step that changes nothing. -/
def Never (_ _ : PendingTransaction) : Prop :=
  False

section Steps

variable {update : PendingTransaction → PendingTransaction → Prop}
  {good : PendingTransaction → α → Prop}

theorem takesTimeout_concludes : Guarantees.TakesTimeout (Concludes refused good) :=
  fun _ _ _ => Or.inr trivial

theorem upholds_bind {first : Activity α} {next : α → Activity β}
    {good : PendingTransaction → β → Prop}
    (upholds : Upholds update refused
      (fun known value => Upholds update refused good (next value) known) first known) :
    Upholds update refused good (first >>= next) known := by
  refine Guarantees.andThen (upholds.mono fun known outcome concludes => ?_)
  cases outcome with
  | ok value => exact concludes
  | error failure => exact concludes

theorem upholds_publish {later : PendingTransaction} {next : Unit → Activity α}
    (allowed : update known later) (rest : Upholds update refused good (next ()) later) :
    Upholds update refused good (Activity.publish later >>= next) known :=
  ⟨allowed, rest⟩

theorem upholds_lift {outcome : Outcome α} (neutral : outcome.Neutral)
    (results : ∀ value, outcome = .ok value → good known value) :
    Upholds update refused good (liftM outcome : Activity α) known := by
  cases outcome with
  | ok value => exact results value rfl
  | error failure => exact Or.inr (neutral failure rfl known)

theorem upholds_send {method : String} {params : List Value}
    {good : PendingTransaction → Value → Prop} (answers : ∀ answer, good known answer) :
    Upholds update refused good (Transport.direct.send method params) known := by
  rintro (outcome | _ | _) allowed
  · cases outcome with
    | ok answer => exact answers answer
    | error failure => exact Or.inl (allowed failure rfl)
  · exact Or.inr trivial
  · exact Or.inr trivial

theorem upholds_sleep {seconds : Rat} {good : PendingTransaction → Unit → Prop}
    (slept : good known ()) : Upholds update refused good (Activity.sleep seconds) known := by
  rintro (_ | _ | _) _
  · exact slept
  · exact Or.inr trivial
  · exact Or.inr trivial

end Steps

section Wait

variable {state : TransactionState} (isOpen : state = .submitted ∨ state = .mined)

include isOpen

theorem upholds_timeOut {good : PendingTransaction → α → Prop} {timeout blocks : Option Value} :
    Upholds Update refused good (timeOut pending timeout blocks) { pending with state } := by
  have update : Update { pending with state } { pending with state := .timedOut } := .expired isOpen
  exact ⟨update, Or.inr ⟨fun _ => rfl, nofun⟩⟩

theorem upholds_bounded {good : PendingTransaction → α → Prop} {step : Activity α}
    (upholds : Upholds Never refused good step { pending with state }) :
    Upholds Update refused good (bounded pending bound step) { pending with state } := by
  have limited := Guarantees.bounded takesTimeout_concludes upholds bound.deadline
  -- A step that changes nothing leaves alone what is known, unless it runs into the deadline.
  refine Guarantees.andThen (limited.of_never.mono ?_)
  rintro _ outcome ⟨rfl, concludes⟩
  cases outcome with
  | ok value => exact concludes
  | error failure =>
      dsimp only
      split
      · exact upholds_timeOut isOpen
      · exact concludes

theorem upholds_headNumber {good : PendingTransaction → Int → Prop}
    (heads : ∀ head, good { pending with state } head) :
    Upholds Update refused good (bounded pending bound pipeline.onNode.headNumber)
      { pending with state } := by
  refine upholds_bounded isOpen (upholds_bind (upholds_send fun answer => ?_))
  exact upholds_lift Outcome.neutral_toInt fun head _ => heads head

theorem upholds_withoutReceipt {good : PendingTransaction → PendingTransaction → Prop}
    (unmined : good pending.unmined pending.unmined) :
    Upholds Update refused good (withoutReceipt pending) { pending with state } := by
  have update : Update { pending with state } pending.unmined := .lost isOpen
  rw [withoutReceipt]
  split
  · exact ⟨update, unmined⟩
  · exact ⟨update, unmined⟩

theorem upholds_checkBlocks {firstHead : Option Int}
    {good : PendingTransaction → Option Int → Prop}
    (heads : ∀ head, good { pending with state } head) :
    Upholds Update refused good (pipeline.onNode.checkBlocks pending bound firstHead)
      { pending with state } := by
  rw [checkBlocks]
  split
  · exact heads firstHead
  · refine upholds_bind (upholds_headNumber isOpen fun head => ?_)
    split
    · exact heads (some head)
    · split
      · exact upholds_timeOut isOpen
      · exact heads _

end Wait

section Replay

variable (decodes : ∀ data failure, pipeline.decoder data = .error failure → refused failure)

theorem refused_of_toRevert {fault : Fault} {failure : Failure}
    (decodes : ∀ data failure, pipeline.decoder data = .error failure → refused failure)
    (failed : fault.toRevert pipeline.decoder = .error failure) : refused failure := by
  apply decodes (fault.revertPayload?.getD [])
  rw [Fault.toRevert] at failed
  cases found : pipeline.decoder (fault.revertPayload?.getD []) with
  | ok reason =>
      rw [found] at failed
      cases failed
  | error other =>
      rw [found] at failed
      cases failed
      rfl

theorem upholds_replayCall {good : PendingTransaction → Dict → Prop}
    (calls : ∀ call, good known call) :
    Upholds Never refused good (pipeline.onNode.replayCall pending) known := by
  unfold replayCall
  split
  · exact calls _
  · refine upholds_bind (upholds_send fun found => ?_)
    dsimp only
    split
    · exact Or.inr ⟨nofun, nofun⟩
    · refine upholds_bind (upholds_lift Outcome.neutral_member fun sender _ => ?_)
      refine upholds_bind (upholds_lift Outcome.neutral_lookup fun input _ => ?_)
      have members : ∀ key, Outcome.Neutral (do return Fault.present? (← found.lookup key)) :=
        fun key => Outcome.neutral_bind Outcome.neutral_lookup fun _ => Outcome.neutral_ok
      refine upholds_bind (upholds_lift (members "to") fun recipient _ => ?_)
      refine upholds_bind (upholds_lift (members "value") fun value _ => ?_)
      exact upholds_bind (upholds_lift (members "gas") fun gas _ => calls _)

theorem upholds_replay {block : Int} {good : PendingTransaction → Unit → Prop}
    (replayed : good known ()) :
    Upholds Never refused good (pipeline.onNode.replay pending block) known := by
  refine upholds_bind (upholds_replayCall fun call => ?_)
  refine upholds_bind (upholds_lift Outcome.neutral_ofValue fun blockText _ => ?_)
  exact upholds_bind (upholds_send fun answer => replayed)

include decodes

theorem upholds_replayReason {block : Int} {good : PendingTransaction → Option String → Prop}
    (reasons : ∀ reason, good known reason) :
    Upholds Never refused good (pipeline.onNode.replayReason pending block) known := by
  have replays : Upholds Never refused (fun last _ => last = known)
      (pipeline.onNode.replay pending block) known := upholds_replay rfl
  refine Guarantees.andThen (replays.of_never.mono ?_)
  rintro _ outcome ⟨rfl, concludes⟩
  split
  · exact reasons none
  · next fault =>
      split
      · cases found : fault.toRevert pipeline.decoder with
        | ok revert =>
            change Upholds Never refused good (liftM (fault.toRevert pipeline.decoder) >>= _) _
            rw [found]
            exact reasons _
        | error failure =>
            change Upholds Never refused good (liftM (fault.toRevert pipeline.decoder) >>= _) _
            rw [found]
            exact Or.inl (refused_of_toRevert decodes found)
      · exact reasons none
  · exact concludes

theorem upholds_reasonInTime {update : PendingTransaction → PendingTransaction → Prop}
    {block : Int} {good : PendingTransaction → Option String → Prop}
    (reasons : ∀ reason, good known reason) :
    Upholds update refused good (pipeline.onNode.reasonInTime pending block bound) known := by
  have replays : Upholds Never refused good (pipeline.onNode.replayReason pending block) known :=
    upholds_replayReason decodes reasons
  have limited := Guarantees.bounded takesTimeout_concludes replays bound.deadline
  refine Guarantees.andThen (limited.of_never.mono ?_)
  rintro _ outcome ⟨rfl, concludes⟩
  cases outcome with
  | ok reason => exact concludes
  | error failure =>
      dsimp only
      split
      · exact reasons none
      · exact concludes

theorem upholds_revert {block : Int} {good : PendingTransaction → α → Prop}
    (mined : pending.state = .mined) :
    Upholds Update refused good (pipeline.onNode.revert pending block bound) pending := by
  rw [revert_eq]
  refine upholds_publish (.reverted mined) (upholds_bind ?_)
  refine upholds_reasonInTime decodes fun reason => ?_
  exact upholds_publish (.explained rfl) (Or.inr ⟨nofun, fun _ => rfl⟩)

end Replay

/-- What a poll shows is what is known. -/
def Shows (known : PendingTransaction) : Poll → Prop
  | .confirmed later => later = known ∧ known.state = .confirmed
  | .unconfirmed later _ => later = known ∧ known.IsOpen

theorem upholds_noteMined {block : Int} {good : PendingTransaction → Unit → Prop}
    (noted : good known ()) : Upholds Update refused good (noteMined pending block) known := by
  rw [noteMined]
  split <;> exact noted

theorem blockOf_eq_ok {receipt number : Value} {block : Int}
    (member : receipt.member "blockNumber" = .ok number)
    (read : Quantity.toInt number = .ok block) : blockOf receipt.entries = .ok block := by
  cases receipt with
  | dict entries =>
      change ((Value.dict entries).member "blockNumber" >>= Quantity.toInt) = .ok block
      rw [member]
      exact read
  | _ => cases member

section Polls

variable {state : TransactionState} (isOpen : state = .submitted ∨ state = .mined)
  (decodes : ∀ data failure, pipeline.decoder data = .error failure → refused failure)

include isOpen

theorem upholds_pollWithoutReceipt {firstHead : Option Int} :
    Upholds Update refused Shows (pipeline.onNode.pollWithoutReceipt bound pending firstHead)
      { pending with state } := by
  refine upholds_bind (upholds_withoutReceipt isOpen ?_)
  exact upholds_bind (upholds_checkBlocks (Or.inl rfl) fun head => ⟨rfl, Or.inl rfl⟩)

include decodes

theorem upholds_withReceipt {receipt : Value}
    {good : PendingTransaction → PendingTransaction × Int → Prop}
    (mined : ∀ entries block,
      good (pending.minedAt block entries) (pending.minedAt block entries, block)) :
    Upholds Update refused good (pipeline.onNode.withReceipt pending receipt bound)
      { pending with state } := by
  unfold withReceipt
  refine upholds_bind (upholds_lift Outcome.neutral_member fun number member => ?_)
  refine upholds_bind (upholds_lift Outcome.neutral_toInt fun block read => ?_)
  refine upholds_bind ?_
  apply upholds_noteMined
  have update : Update { pending with state } (pending.minedAt block receipt.entries) :=
    .found isOpen (blockOf_eq_ok member read)
  refine upholds_publish update ?_
  refine upholds_bind (upholds_lift Outcome.neutral_lookup fun word _ => ?_)
  refine upholds_bind (upholds_lift Outcome.neutral_toInt fun status _ => ?_)
  split
  · exact upholds_revert decodes rfl
  · exact mined _ _

theorem upholds_pollWithReceipt {receipt : Value} {firstHead : Option Int} :
    Upholds Update refused Shows (pipeline.onNode.pollWithReceipt bound pending receipt firstHead)
      { pending with state } := by
  refine upholds_bind (upholds_withReceipt isOpen decodes fun entries block => ?_)
  refine upholds_bind (upholds_headNumber (Or.inr rfl) fun head => ?_)
  refine upholds_bind (upholds_lift Outcome.neutral_isReached fun reached _ => ?_)
  split
  · exact ⟨.confirmed rfl, rfl, rfl⟩
  · exact ⟨rfl, Or.inr rfl⟩

theorem upholds_poll {firstHead : Option Int} :
    Upholds Update refused Shows (pipeline.onNode.poll bound pending firstHead)
      { pending with state } := by
  refine upholds_bind (upholds_bounded isOpen (upholds_send fun receipt => ?_))
  split
  · exact upholds_pollWithoutReceipt isOpen
  · exact upholds_pollWithReceipt isOpen decodes

end Polls

theorem upholds_pause {good : PendingTransaction → Unit → Prop} (isOpen : pending.IsOpen)
    (paused : good pending ()) : Upholds Update refused good (pause pending bound) pending := by
  rw [pause]
  split
  · exact upholds_sleep paused
  · intro now
    change Upholds Update refused good (ite _ _ _) pending
    split
    · exact upholds_timeOut isOpen
    · exact upholds_sleep paused

/-- A result of a wait is the transaction as it is known, which is confirmed. -/
def Returns (known result : PendingTransaction) : Prop :=
  result = known ∧ known.state = .confirmed

theorem upholds_watch {rounds : Nat} {state : TransactionState} {firstHead : Option Int}
    (isOpen : state = .submitted ∨ state = .mined)
    (decodes : ∀ data failure, pipeline.decoder data = .error failure → refused failure) :
    Upholds Update refused Returns (pipeline.onNode.watch bound rounds pending firstHead)
      { pending with state } := by
  induction rounds generalizing pending state firstHead with
  | zero => trivial
  | succ rounds ih =>
      rw [watch]
      refine upholds_bind ((upholds_poll isOpen decodes).mono fun known outcome concludes => ?_)
      cases outcome with
      | error failure => exact concludes
      | ok shown =>
          cases shown with
          | confirmed later => exact concludes
          | unconfirmed later first =>
              rcases concludes with ⟨rfl, stillOpen⟩
              exact upholds_bind (upholds_pause stillOpen (ih stillOpen))

theorem upholds_wait {rounds : Nat}
    (decodes : ∀ data failure, pipeline.decoder data = .error failure → refused failure) :
    Upholds Update refused Returns (pipeline.onNode.wait pending rounds) pending.reopened := by
  apply Guarantees.within
  intro now
  exact upholds_watch (Or.inl rfl) decodes

end Pipeline

/-- A transaction was submitted and waited for any number of times, each time with any policy. -/
inductive PendingTransaction.Life : PendingTransaction → Prop where
  | submitted {pipeline : Pipeline} {raw : Bytes} {policy : Option ConfirmationPolicy}
      {request : Option TransactionRequest} {pending : PendingTransaction} {start stop : Rat}
      {labels : List Label}
      (run : Activity.Run (pipeline.submit raw policy request) start labels (.ended (.ok pending))
        stop) : Life pending
  | redirected {pending : PendingTransaction} (life : Life pending) (policy : ConfirmationPolicy) :
      Life { pending with policy }
  | waited {pipeline : Pipeline} {pending : PendingTransaction} {rounds : Nat} {start stop : Rat}
      {labels : List Label} {ending : Ending PendingTransaction} (life : Life pending)
      (run : Activity.Run (pipeline.onNode.wait pending rounds) start labels ending stop) :
      Life (knownAfter pending labels)

namespace Pipeline

variable {pipeline : Pipeline} {pending : PendingTransaction} {rounds : Nat} {start stop : Rat}
  {labels : List Label} {ending : Ending PendingTransaction}

open Activity PendingTransaction

/-- A failure that a wait only passes on: the node refused a question with it, or the decoder of
reasons failed with it. -/
def PassesOn (pipeline : Pipeline) (asked : List NodeCall) (failure : Failure) : Prop :=
  (∃ call ∈ asked, call.answer = some (.error failure)) ∨
    ∃ data, pipeline.decoder data = .error failure

/-- What can be seen of a wait: what is known fits together at every moment, the state starts as
open or expired and goes one way from then on, and the end of the wait agrees with the state. -/
structure Observed (pipeline : Pipeline) (pending : PendingTransaction) (labels : List Label)
    (ending : Ending PendingTransaction) : Prop where
  consistent : ∀ seen, seen <+: labels → (knownAfter pending seen).Consistent
  opening : ∀ first ∈ (progress labels).head?,
    first.state = .submitted ∨ first.state = .mined ∨ first.state = .timedOut
  moves : (progress labels).IsChain fun before after =>
    TransactionState.Moves before.state after.state
  returned : ∀ result, ending = .ended (.ok result) →
    result = knownAfter pending labels ∧ result.state = .confirmed
  expired : ∀ fault, ending = .ended (.error (.fault fault)) → fault.kind = .confirmationTimeout →
    (knownAfter pending labels).state = .timedOut ∨ pipeline.PassesOn (calls labels) (.fault fault)
  reverted : ∀ fault, ending = .ended (.error (.fault fault)) → fault.kind = .transactionReverted →
    (knownAfter pending labels).state = .reverted ∨ pipeline.PassesOn (calls labels) (.fault fault)

theorem consistent_knownAfter {seen : List Label} (consistent : pending.Consistent)
    (updates : ∀ next ∈ progress labels, next.Consistent) (before : seen <+: labels) :
    (knownAfter pending seen).Consistent := by
  rcases knownAfter_eq_or_mem pending seen with same | published
  · rwa [same]
  · rcases before with ⟨rest, rfl⟩
    exact updates _ (by simp [progress] at published ⊢; exact Or.inl published)

theorem knownAfter_of_reopened
    (changed : (knownAfter pending.reopened labels).state ≠ .submitted) :
    knownAfter pending.reopened labels = knownAfter pending labels := by
  refine (knownAfter_eq_of_ne fun same => changed ?_).symm
  rw [same]
  rfl

theorem observed_of_consistent (consistent : pending.Consistent)
    (run : Run (pipeline.onNode.wait pending rounds) start labels ending stop) :
    Observed pipeline pending labels ending := by
  have upholds : Upholds Update (pipeline.PassesOn (calls labels)) Returns
      (pipeline.onNode.wait pending rounds) pending.reopened :=
    upholds_wait fun data failure failed => Or.inr ⟨data, failed⟩
  rcases upholds.of_run run fun call member failure refused => Or.inl ⟨call, member, refused⟩ with
    ⟨chain, ends⟩
  have updates := consistent_of_isChain chain consistent.coherent_reopened
  have failed : ∀ fault, ending = .ended (.error (.fault fault)) →
      (knownAfter pending.reopened labels).Agrees (.fault fault) ∨
        pipeline.PassesOn (calls labels) (.fault fault) :=
    fun fault ended => Or.symm (ends _ ended)
  refine {
    consistent := fun seen => consistent_knownAfter consistent updates
    opening := ?_
    moves := ?_
    returned := ?_
    expired := ?_
    reverted := ?_ }
  · intro first member
    cases same : progress labels with
    | nil => simp [same] at member
    | cons one rest =>
        rw [same] at chain member
        cases member
        have moves : TransactionState.Moves .submitted first.state :=
          (List.isChain_cons_cons.mp chain).1.moves
        generalize first.state = state at moves
        cases moves with
        | stay => exact Or.inl rfl
        | mined => exact Or.inr (Or.inl rfl)
        | expired => exact Or.inr (Or.inr rfl)
  · exact chain.of_cons.imp fun _ _ update => update.moves
  · intro result ended
    rcases ends _ ended with ⟨rfl, confirmed⟩
    have changed : (knownAfter pending.reopened labels).state ≠ .submitted := by simp [confirmed]
    exact ⟨knownAfter_of_reopened changed, confirmed⟩
  · intro fault ended kind
    refine (failed fault ended).imp_left fun agrees => ?_
    have expired := agrees.1 kind
    rwa [knownAfter_of_reopened (by simp [expired])] at expired
  · intro fault ended kind
    refine (failed fault ended).imp_left fun agrees => ?_
    have reverted := agrees.2 kind
    rwa [knownAfter_of_reopened (by simp [reverted])] at reverted

theorem submit_inv {raw : Bytes} {policy : Option ConfirmationPolicy}
    {request : Option TransactionRequest}
    (run : Run (pipeline.submit raw policy request) start labels (.ended (.ok pending)) stop) :
    pending.state = .submitted ∧ pending.blockNumber = none ∧ pending.receipt = none := by
  rcases Run.bind_inv run with ⟨txHash, _, _, _, _, notedRun, _⟩ | ⟨_, _, abandons⟩
  · rcases Run.emit_bind_inv notedRun with ⟨_, doneRun, _⟩
    cases (Run.done_inv doneRun).2.1
    exact ⟨rfl, rfl, rfl⟩
  · cases abandons

theorem consistent_of_life (life : pending.Life) : pending.Consistent := by
  induction life with
  | submitted run =>
      rcases submit_inv run with ⟨submitted, noBlock, noReceipt⟩
      refine ⟨⟨by simp [noBlock, noReceipt], ?_⟩, fun _ => ⟨noBlock, noReceipt⟩⟩
      rw [submitted]
      rintro (same | same | same) <;> cases same
  | redirected life policy ih => exact ⟨⟨ih.paired, ih.mined⟩, ih.unmined⟩
  | waited life run ih => exact (observed_of_consistent ih run).consistent _ (List.prefix_refl _)

/-- Over the whole life of a transaction, what is known fits together at every moment of every wait,
and the state goes one way during each wait. -/
theorem wait_observed (life : pending.Life)
    (run : Run (pipeline.onNode.wait pending rounds) start labels ending stop) :
    Observed pipeline pending labels ending :=
  observed_of_consistent (consistent_of_life life) run

section Examples

theorem life_patient : patient.Life := by
  have reaches : Reaches (plain.onNode.submit [] (some patient.policy) none) 0
      [⟨"eth_sendRawTransaction", [.text (Data.ofBytes [])], some (.ok patient.txHash)⟩]
      (.ended (.ok patient)) := .call (.tell .done)
  rcases reaches with ⟨labels, stop, run, _⟩
  exact .submitted run

/-- A receipt of failure. -/
def failedIn (block : Int) : Dict :=
  [("blockNumber", .int block), ("status", .int 0)]

/-- The node does not find the failed transaction any more, so the reason stays unknown. -/
theorem wait_observed_reverted :
    let fault := Fault.transactionReverted patient.txHash none (some (failedIn 10))
    let ending := .ended (.error (.fault fault))
    ∃ labels stop, Run (plain.onNode.wait patient 1) 0 labels ending stop ∧
      Observed plain patient labels ending := by
  intro fault ending
  have reaches : Reaches (plain.onNode.wait patient 1) 0
      [.receipt patient.txHash (.dict (failedIn 10)),
        ⟨"eth_getTransactionByHash", [patient.txHash], some (.ok .null)⟩] ending := by
    apply Reaches.clock
    refine .call (.tell (.tell (.tell (.call ?_))))
    exact .tell (.tell (.tell .done))
  rcases reaches with ⟨labels, stop, run, _⟩
  exact ⟨labels, stop, run, wait_observed life_patient run⟩

/-- A timeout that a wait reports may be one that the node refused a question with. -/
theorem not_expired_of_refusal : ¬∀ (pipeline : Pipeline) (pending : PendingTransaction)
    (rounds : Nat) (start stop : Rat) (labels : List Label) (fault : Fault), pending.Life →
      Run (pipeline.onNode.wait pending rounds) start labels (.ended (.error (.fault fault))) stop →
        fault.kind = .confirmationTimeout → (knownAfter pending labels).state = .timedOut := by
  intro expires
  let boom := Fault.confirmationTimeout (.text "boom")
  let refused := Label.asked (.call "eth_getTransactionReceipt" [patient.txHash]) 0 0
    (.answer (.error (.fault boom)))
  have run : Run (plain.onNode.wait patient 1) 0 [refused] (.ended (.error (.fault boom))) 0 :=
    .clock (.ask (by simp) (.answered Rat.le_refl (by simp [Query.duration?]) (by simp)) .done)
  have expired := expires plain patient 1 0 0 [refused] boom life_patient run rfl
  exact absurd expired (by decide)

end Examples

end Pipeline

end ContractClient
