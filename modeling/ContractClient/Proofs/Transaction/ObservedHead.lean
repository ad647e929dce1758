import ContractClient.Proofs.Transaction.Broadcast

/-!
# The head of a confirmation

Over whatever transport a transaction is sent, its confirmation is decided by the last thing that is
asked: the head of the chain, which is held against the block of the receipt
(`Pipeline.confirmedUnder_send`).
-/

namespace ContractClient

open Activity

/-- A value demands a number of blocks; a flag counts as zero or one. -/
inductive IsCount : Value → Nat → Prop where
  | int (count : Nat) : IsCount (.int count) count
  | flag (demanded : Bool) : IsCount (.bool demanded) (if demanded then 1 else 0)

theorem IsCount.ofValue {value : Value} {count : Nat} (counted : IsCount value count) :
    Numeral.ofValue value = .ok (.int count) := by
  cases counted with
  | int count => rfl
  | flag demanded => cases demanded <;> rfl

theorem ConfirmationPolicy.isReached_eq_ok_iff {policy : ConfirmationPolicy} {count : Nat}
    {block head : Int} (counted : IsCount policy.requiredConfirmations count) :
    policy.isReached block head = .ok true ↔ block + count ≤ head := by
  simp [isReached, counted.ofValue, Numeral.add, Numeral.le, Numeral.lt]

namespace Pipeline

variable {pipeline : Pipeline} {request : TransactionRequest}
  {pending confirmed : PendingTransaction} {policy : Option ConfirmationPolicy} {bound : WaitBound}
  {rounds : Nat} {start stop : Rat} {labels : List Label}

/-- The last thing that is asked is the head of the chain, which has this number. -/
def EndsWithHead (pipeline : Pipeline) (labels : List Label) (head : Int) : Prop :=
  ∃ before asked after deadline context moment later,
    labels = before ++ asked ++ after ∧ (∀ label ∈ after, label.IsTold) ∧
      Run ((pipeline.headNumber.bounded deadline).within context) moment asked
        (.ended (.ok head)) later

theorem EndsWithHead.append {head : Int} (ends : EndsWithHead pipeline labels head)
    (earlier : List Label) : EndsWithHead pipeline (earlier ++ labels) head := by
  rcases ends with ⟨before, asked, after, deadline, context, moment, later, rfl, told, run⟩
  refine ⟨earlier ++ before, asked, after, deadline, context, moment, later, ?_, told, run⟩
  simp

/-- A transaction is confirmed under a policy by a head that is as far above its block as the policy
demands. -/
structure ConfirmedUnder (demanded : ConfirmationPolicy) (confirmed : PendingTransaction)
    (head : Int) : Prop where
  state : confirmed.state = .confirmed
  policy : confirmed.policy = demanded
  reached : ∃ block, confirmed.blockNumber = some block ∧ demanded.isReached block head = .ok true

/-- A receipt that does not end the poll puts the transaction into a block. -/
theorem withReceipt_ok_inv {receipt : Value} {mined : PendingTransaction} {block : Int}
    (run : Run (pipeline.withReceipt pending receipt bound) start labels
      (.ended (.ok (mined, block))) stop) :
    mined.policy = pending.policy ∧ mined.blockNumber = some block := by
  unfold withReceipt at run
  rcases Run.lift_bind_inv run with ⟨_, _, run⟩ | ⟨_, _, _, ⟨⟩⟩
  rcases Run.lift_bind_inv run with ⟨number, _, run⟩ | ⟨_, _, _, ⟨⟩⟩
  rcases Run.bind_inv run with ⟨_, _, _, _, _, run, _⟩ | ⟨_, _, ⟨⟩⟩
  rcases Run.emit_bind_inv run with ⟨_, run, _⟩
  rcases Run.lift_bind_inv run with ⟨_, _, run⟩ | ⟨_, _, _, ⟨⟩⟩
  rcases Run.lift_bind_inv run with ⟨status, _, run⟩ | ⟨_, _, _, ⟨⟩⟩
  by_cases failed : status = 0
  · rw [if_pos failed] at run
    exact absurd rfl (revert_noResult run (mined, block))
  · rw [if_neg failed] at run
    cases (Run.done_inv run).2.1
    exact ⟨rfl, rfl⟩

/-- A step that has a result before its deadline has it without the handling of a timeout. -/
theorem bounded_ok_inv {α : Type} {step : Activity α} {result : α}
    (run : Run (bounded pending bound step) start labels (.ended (.ok result)) stop) :
    Run (step.bounded bound.deadline) start labels (.ended (.ok result)) stop := by
  rcases Run.handle_iff.mp run with ⟨stepRun, _⟩ | ⟨failure, _, _, _, _, handled, _⟩
  · exact stepRun
  · split at handled
    · rcases timeOut_inv handled with ⟨_, ⟨⟩⟩
    · cases handled

/-- What a poll tells of a transaction: it is confirmed by the head that was asked for last, or it
waits on under the same policy. -/
def PollsUnder (pipeline : Pipeline) (context : Dict) (pending : PendingTransaction)
    (labels : List Label) : Poll → Prop
  | .confirmed confirmed =>
    ∃ head, EndsWithHead pipeline (labels.map (Label.within context)) head ∧
      ConfirmedUnder pending.policy confirmed head
  | .unconfirmed later _ => later.policy = pending.policy

theorem pollsUnder_pollWithReceipt {context : Dict} {receipt : Value} {firstHead : Option Int}
    {shown : Poll}
    (run : Run (pipeline.pollWithReceipt bound pending receipt firstHead) start labels
      (.ended (.ok shown)) stop) : PollsUnder pipeline context pending labels shown := by
  rcases Run.bind_inv run with
    ⟨⟨mined, block⟩, before, _, asked, receiptRun, askRun, rfl⟩ | ⟨_, _, ⟨⟩⟩
  rcases withReceipt_ok_inv receiptRun with ⟨samePolicy, inBlock⟩
  rcases Run.bind_inv askRun with ⟨head, asking, later, _, headRun, compareRun, rfl⟩ | ⟨_, _, ⟨⟩⟩
  rcases Run.lift_bind_inv compareRun with ⟨reached, compared, lastRun⟩ | ⟨_, _, _, ⟨⟩⟩
  cases reached with
  | false =>
      cases (Run.done_inv lastRun).2.1
      exact samePolicy
  | true =>
      rcases Run.emit_bind_inv lastRun with ⟨_, noteRun, rfl⟩
      rcases Run.emit_bind_inv noteRun with ⟨_, doneRun, rfl⟩
      rcases Run.done_inv doneRun with ⟨rfl, same, _⟩
      cases same
      refine ⟨head, ?_, rfl, samePolicy, block, inBlock, samePolicy ▸ compared⟩
      have inContext := (bounded_ok_inv headRun).within context
      rw [List.map_append, List.map_append]
      refine EndsWithHead.append ⟨[], _, _, bound.deadline, context, _, later, rfl, ?_, inContext⟩ _
      simp [Label.within, Label.IsTold]

theorem pollsUnder_poll {context : Dict} {firstHead : Option Int} {shown : Poll}
    (run : Run (pipeline.poll bound pending firstHead) start labels (.ended (.ok shown)) stop) :
    PollsUnder pipeline context pending labels shown := by
  rcases Run.bind_inv run with ⟨receipt, before, _, after, _, restRun, rfl⟩ | ⟨_, _, ⟨⟩⟩
  split at restRun
  · rcases Run.bind_inv restRun with ⟨later, _, _, _, withoutRun, checkRun, rfl⟩ | ⟨_, _, ⟨⟩⟩
    cases withoutReceipt_inv withoutRun
    rcases Run.bind_inv checkRun with ⟨_, _, _, _, _, lastRun, rfl⟩ | ⟨_, _, ⟨⟩⟩
    cases (Run.done_inv lastRun).2.1
    exact rfl
  · have rest : PollsUnder pipeline context pending after shown :=
      pollsUnder_pollWithReceipt restRun
    cases shown with
    | unconfirmed later head => exact rest
    | confirmed confirmed =>
        rcases rest with ⟨head, ends, under⟩
        rw [PollsUnder, List.map_append]
        exact ⟨head, ends.append _, under⟩

theorem confirmedUnder_watch {context : Dict} {firstHead : Option Int}
    (run : Run (pipeline.watch bound rounds pending firstHead) start labels
      (.ended (.ok confirmed)) stop) :
    ∃ head, EndsWithHead pipeline (labels.map (Label.within context)) head ∧
      ConfirmedUnder pending.policy confirmed head := by
  -- The policy stays the same from poll to poll, so the last poll speaks for all of them.
  induction rounds generalizing pending firstHead start labels with
  | zero => cases run
  | succ rounds ih =>
      rcases Run.bind_inv run with ⟨shown, polled, _, rest, pollRun, restRun, rfl⟩ | ⟨_, _, ⟨⟩⟩
      have under : PollsUnder pipeline context pending polled shown := pollsUnder_poll pollRun
      rw [List.map_append]
      cases shown with
      | confirmed pending =>
          rcases Run.done_inv restRun with ⟨rfl, same, _⟩
          cases same
          rwa [List.map_nil, List.append_nil]
      | unconfirmed later head =>
          rcases Run.bind_inv restRun with ⟨_, paused, _, _, _, watchRun, rfl⟩ | ⟨_, _, ⟨⟩⟩
          rcases ih watchRun with ⟨head, ends, confirmed⟩
          rw [List.map_append]
          exact ⟨head, (ends.append _).append _, under ▸ confirmed⟩

theorem confirmedUnder_wait
    (run : Run (pipeline.wait pending rounds) start labels (.ended (.ok confirmed)) stop) :
    ∃ head, EndsWithHead pipeline labels head ∧ ConfirmedUnder pending.policy confirmed head := by
  rcases Run.within_map_inv run with ⟨own, waiting, rfl⟩
  cases waiting with
  | clock next => exact confirmedUnder_watch next

/-- A transaction that was sent is confirmed under the policy that was asked for, or else under the
one that is configured, by the last head. -/
theorem confirmedUnder_send
    (run : Run (pipeline.send request policy rounds) start labels (.ended (.ok confirmed)) stop) :
    ∃ head, EndsWithHead pipeline labels head ∧
      ConfirmedUnder (policy.getD pipeline.config.confirmation) confirmed head := by
  rcases Run.bind_inv run with ⟨built, _, _, _, _, signRun, rfl⟩ | ⟨_, _, ⟨⟩⟩
  rcases Run.bind_inv signRun with ⟨raw, _, _, _, _, handRun, rfl⟩ | ⟨_, _, ⟨⟩⟩
  rcases Run.bind_inv handRun with ⟨pending, _, _, _, submitRun, waitRun, rfl⟩ | ⟨_, _, ⟨⟩⟩
  rcases Run.bind_inv submitRun with ⟨txHash, _, _, _, _, noteRun, _⟩ | ⟨_, _, ⟨⟩⟩
  rcases Run.emit_bind_inv noteRun with ⟨_, doneRun, _⟩
  cases (Run.done_inv doneRun).2.1
  rcases confirmedUnder_wait waitRun with ⟨head, ends, under⟩
  exact ⟨head, ((ends.append _).append _).append _, under⟩

end Pipeline

end ContractClient
