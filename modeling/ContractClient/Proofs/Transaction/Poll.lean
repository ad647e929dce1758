import ContractClient.Proofs.Activity.Call
import ContractClient.Proofs.Outcome
import ContractClient.Transaction.Pipeline

/-!
# Polls

What a node is asked in one poll of a wait, and what the poll shows (`Pipeline.poll_inv`): a receipt
of a transaction that succeeded is followed by one question for the head, and nothing else is ever
answered by a receipt and a head.
-/

namespace ContractClient

/-- Two neighbours in a list of two parts stand in one of them, unless the first part ends with the
first of them. -/
theorem neighbours_of_append {α : Type} {front back before after : List α} {first second : α}
    (split : front ++ back = before ++ first :: second :: after)
    (closed : front.getLast? ≠ some first) :
    (∃ middle, before = front ++ middle ∧ back = middle ++ first :: second :: after) ∨
      ∃ middle, front = before ++ first :: second :: middle := by
  rcases List.append_eq_append_iff.mp split with ⟨middle, same, inBack⟩ | ⟨middle, inFront, tail⟩
  · exact Or.inl ⟨middle, same, inBack⟩
  · match middle with
    | [] => exact Or.inl ⟨[], by simpa using inFront.symm, tail.symm⟩
    | [last] =>
        rw [List.singleton_append, List.cons.injEq] at tail
        rw [← tail.1] at inFront
        exact absurd (by simp [inFront]) closed
    | one :: other :: others =>
        rw [List.cons_append, List.cons_append, List.cons.injEq, List.cons.injEq] at tail
        rcases tail with ⟨rfl, rfl, _⟩
        exact Or.inr ⟨others, inFront⟩

theorem neighbours_of_pair {α : Type} {before after : List α} {one other first second : α}
    (split : [one, other] = before ++ first :: second :: after) :
    before = [] ∧ first = one ∧ second = other ∧ after = [] := by
  match before with
  | [] =>
      rw [List.nil_append, List.cons.injEq, List.cons.injEq] at split
      exact ⟨rfl, split.1.symm, split.2.1.symm, split.2.2.symm⟩
  | [_] => simp at split
  | _ :: _ :: _ => simp at split

/-- A pipeline whose transport asks the node directly. -/
def Pipeline.onNode (pipeline : Pipeline) : Pipeline :=
  { pipeline with transport := .direct }

namespace NodeCall

/-- The node answers with a receipt, or with null. -/
def receipt (txHash answer : Value) : NodeCall :=
  ⟨"eth_getTransactionReceipt", [txHash], some (.ok answer)⟩

/-- The node answers with the number of the newest block. -/
def head (answer : Value) : NodeCall :=
  ⟨"eth_blockNumber", [], some (.ok answer)⟩

theorem answer_of_receipt_eq {txHash answer other : Value}
    (same : receipt txHash answer = receipt txHash other) : answer = other := by
  cases same
  rfl

theorem answer_of_head_eq {answer other : Value} (same : head answer = head other) :
    answer = other := by
  cases same
  rfl

end NodeCall

/-- The block of a receipt. -/
def blockOf (receipt : Dict) : Outcome Int := do
  Quantity.toInt (← (Value.dict receipt).member "blockNumber")

/-- The status of a receipt; without one the transaction counts as successful. -/
def statusOf (receipt : Dict) : Outcome Int := do
  Quantity.toInt (← (Value.dict receipt).lookup "status" (.text "0x1"))

/-- A receipt says that a transaction has succeeded in a block. -/
def SucceededAt (receipt : Dict) (block : Int) : Prop :=
  blockOf receipt = .ok block ∧ ∃ status, statusOf receipt = .ok status ∧ status ≠ 0

/-- What a node answers is no receipt that can be read: an object with a block and a status. -/
def IsUnreadable (answer : Value) : Prop :=
  ∀ receipt block status, answer = .dict receipt → blockOf receipt = .ok block →
    statusOf receipt ≠ .ok status

theorem isUnreadable_of_block {answer : Value} {failure : Failure}
    (unread : (answer.member "blockNumber" >>= Quantity.toInt) = .error failure) :
    IsUnreadable answer := by
  rintro receipt block _ rfl readable
  cases unread.symm.trans readable

theorem isUnreadable_of_status {answer : Value} {failure : Failure}
    (unread : (answer.lookup "status" (.text "0x1") >>= Quantity.toInt) = .error failure) :
    IsUnreadable answer := by
  rintro receipt _ status rfl _ readable
  cases unread.symm.trans readable

/-- A receipt and the head that was asked for after it confirm a transaction: it has succeeded in a
block, and as many blocks follow as the policy demands. -/
def Confirms (policy : ConfirmationPolicy) (receipt : Dict) (block : Int) (head : Value) : Prop :=
  SucceededAt receipt block ∧
    ∃ height, Quantity.toInt head = .ok height ∧ policy.isReached block height = .ok true

/-- Nowhere does a receipt with the next head confirm a transaction. -/
def Unconfirmed (pending : PendingTransaction) (asked : List NodeCall) : Prop :=
  ∀ before receipt head after block,
    asked = before ++ .receipt pending.txHash (.dict receipt) :: .head head :: after →
      ¬Confirms pending.policy receipt block head

namespace Pipeline

variable {α : Type} {pipeline : Pipeline} {pending : PendingTransaction} {bound : WaitBound}
  {start stop : Rat} {labels : List Label}

open Activity

/-- Nothing is asked. -/
def Silent (activity : Activity α) : Prop :=
  activity.CallsOnly fun _ => False

theorem calls_of_silent {activity : Activity α} {ending : Ending α} (silent : Silent activity)
    (run : Run activity start labels ending stop) : calls labels = [] := by
  apply List.eq_nil_iff_forall_not_mem.mpr
  intro call member
  exact silent.method_of_mem_calls run call member

theorem silent_timeOut (timeout blocks : Option Value) :
    Silent (timeOut pending timeout blocks : Activity α) :=
  trivial

theorem timeOut_inv {timeout blocks : Option Value} {ending : Ending α}
    (run : Run (timeOut pending timeout blocks) start labels ending stop) :
    ∃ failure, ending = .ended (.error failure) := by
  rcases Run.tell_inv run with ⟨_, run, _⟩
  rcases Run.tell_inv run with ⟨_, run, _⟩
  exact ⟨_, (Run.done_inv run).2.1⟩

section Questions

variable {method : String} {params : List Value} {read : Value → Outcome α}

/-- A question whose answer is read. -/
def question (method : String) (params : List Value) (read : Value → Outcome α) : Activity α :=
  Transport.direct.send method params >>= fun answer => liftM (read answer)

/-- What is asked and answered by a question, and how it ends. -/
inductive Questioned (method : String) (params : List Value) (read : Value → Outcome α) :
    List NodeCall → Ending α → Prop where
  | read {answer : Value} {result : α} (found : read answer = .ok result) :
      Questioned method params read [⟨method, params, some (.ok answer)⟩] (.ended (.ok result))
  | refused {answer : Value} {failure : Failure} {ending : Ending α}
      (unread : read answer = .error failure) (noResult : ending.NoResult) :
      Questioned method params read [⟨method, params, some (.ok answer)⟩] ending
  | failed {answer : Option (Outcome Value)} {ending : Ending α}
      (noAnswer : ∀ value, answer ≠ some (.ok value)) (noResult : ending.NoResult) :
      Questioned method params read [⟨method, params, answer⟩] ending
  | late {ending : Ending α} (noResult : ending.NoResult) :
      Questioned method params read [] ending

/-- What a reply to a question with a deadline means. -/
def replied (read : Value → Outcome α) (deadline : Option Rat) : Reply (Outcome Value) → Outcome α
  | .answer outcome => outcome >>= read
  | .expired => match deadline with
    | some _ => Outcome.condition .timeout
    | none => .error .cancelled
  | .cancelled => .error .cancelled

theorem question_eq :
    question method params read =
      ask (.call method params) none fun reply => done (replied read none reply) := by
  refine congrArg (ask (.call method params) none) (funext fun reply => ?_)
  rcases reply with outcome | _ | _
  · cases outcome <;> rfl
  · rfl
  · rfl

theorem question_bounded (deadline : Option Rat) :
    (question method params read).bounded deadline =
      ask (.call method params) deadline fun reply => done (replied read deadline reply) := by
  cases deadline with
  | none => exact question_eq
  | some limit =>
      rw [Activity.bounded, question_eq, Activity.boundedBy]
      congr
      funext reply
      rcases reply with outcome | _ | _ <;> rfl

theorem replied_ok_inv {deadline : Option Rat} {reply : Reply (Outcome Value)} {result : α}
    (found : replied read deadline reply = .ok result) :
    ∃ answer, reply = .answer (.ok answer) ∧ read answer = .ok result := by
  rcases reply with outcome | _ | _
  · rcases Outcome.bind_eq_ok_iff.mp found with ⟨answer, rfl, readAnswer⟩
    exact ⟨answer, rfl, readAnswer⟩
  · cases deadline <;> cases found
  · cases found

theorem noResult_of_unanswered {deadline : Option Rat} {reply : Reply (Outcome Value)}
    (noAnswer : ∀ answer, reply ≠ .answer (.ok answer)) :
    (Ending.ended (replied read deadline reply)).NoResult := by
  intro result same
  rcases replied_ok_inv (Ending.ended.inj same) with ⟨answer, answered, _⟩
  exact noAnswer answer answered

theorem question_bounded_inv {deadline : Option Rat} {ending : Ending α}
    (run : Run ((question method params read).bounded deadline) start labels ending stop) :
    Questioned method params read (calls labels) ending := by
  rw [question_bounded] at run
  cases run with
  | late passed next =>
      rcases Run.done_inv next with ⟨rfl, rfl, _⟩
      exact .late (noResult_of_unanswered (by simp))
  | stuck endless => exact .failed (by simp) (by simp [Ending.NoResult])
  | @ask _ _ _ reply _ _ _ _ _ early closes next =>
      rcases Run.done_inv next with ⟨rfl, rfl, _⟩
      rcases reply with outcome | _ | _
      · cases outcome with
        | error failure => exact .failed (by simp) (noResult_of_unanswered (by simp))
        | ok answer =>
            cases found : read answer with
            | ok result =>
                rw [show replied read deadline (.answer (.ok answer)) = .ok result from found]
                exact .read found
            | error failure => exact .refused found (by simp [replied, found, Ending.NoResult])
      · exact .failed (by simp) (noResult_of_unanswered (by simp))
      · exact .failed (by simp) (noResult_of_unanswered (by simp))

theorem question_inv {ending : Ending α}
    (run : Run (question method params read) start labels ending stop) :
    Questioned method params read (calls labels) ending := by
  change Run ((question method params read).bounded none) _ _ _ _ at run
  exact question_bounded_inv run

/-- A step that runs into the deadline has no result. -/
theorem bounded_inv {step : Activity α} {ending : Ending α}
    (run : Run (bounded pending bound step) start labels ending stop) :
    ∃ first before middle, Run (step.bounded bound.deadline) start before first middle ∧
      calls labels = calls before ∧ (first = ending ∨ first.NoResult ∧ ending.NoResult) := by
  rcases Run.andThen_inv run with ⟨first, before, middle, after, stepRun, follows, rfl⟩
  refine ⟨first, before, middle, stepRun, ?_⟩
  cases follows with
  | stuck => exact ⟨by simp, Or.inl rfl⟩
  | unfinished => exact ⟨by simp, Or.inl rfl⟩
  | @ended outcome _ _ _ _ next =>
      cases outcome with
      | ok result =>
          rcases Run.done_inv next with ⟨rfl, rfl, _⟩
          exact ⟨by simp, Or.inl rfl⟩
      | error failure =>
          rw [calls_append]
          dsimp only at next
          split at next
          · rcases timeOut_inv next with ⟨_, rfl⟩
            rw [calls_of_silent (silent_timeOut _ _) next, List.append_nil]
            exact ⟨rfl, Or.inr ⟨by simp [Ending.NoResult], by simp [Ending.NoResult]⟩⟩
          · rcases Run.done_inv next with ⟨rfl, rfl, _⟩
            exact ⟨by simp, Or.inl rfl⟩

theorem bounded_question_inv {ending : Ending α}
    (run : Run (bounded pending bound (question method params read)) start labels ending stop) :
    Questioned method params read (calls labels) ending := by
  rcases bounded_inv run with ⟨first, before, middle, stepRun, sameCalls, sameEnding⟩
  have questioned := question_bounded_inv stepRun
  rw [← sameCalls] at questioned
  generalize calls labels = asked at questioned ⊢
  rcases sameEnding with rfl | ⟨noFirst, noLast⟩
  · exact questioned
  · cases questioned with
    | read found => exact absurd rfl (noFirst _)
    | refused unread _ => exact .refused unread noLast
    | failed noAnswer _ => exact .failed noAnswer noLast
    | late _ => exact .late noLast

end Questions

theorem send_eq_question (method : String) (params : List Value) :
    Transport.direct.send method params = question method params fun answer => .ok answer := by
  refine congrArg (ask (.call method params) none) (funext fun reply => ?_)
  rcases reply with outcome | _ | _
  · cases outcome <;> rfl
  · rfl
  · rfl

theorem callsOnly_bounded {allowed : String → Prop} {step : Activity α}
    (only : step.CallsOnly allowed) : (bounded pending bound step).CallsOnly allowed := by
  apply (only.bounded bound.deadline).andThen
  intro outcome
  cases outcome with
  | ok value => trivial
  | error failure =>
      dsimp only
      split <;> trivial

theorem silent_withoutReceipt : Silent (withoutReceipt pending) := by
  rw [withoutReceipt]
  split <;> trivial

theorem withoutReceipt_inv {ending : Ending PendingTransaction}
    (run : Run (withoutReceipt pending) start labels ending stop) :
    ending = .ended (.ok pending.unmined) := by
  rw [withoutReceipt] at run
  split at run
  · rcases Run.tell_inv run with ⟨_, noted, _⟩
    rcases Run.tell_inv noted with ⟨_, published, _⟩
    exact (Run.done_inv published).2.1
  · rcases Run.tell_inv run with ⟨_, published, _⟩
    exact (Run.done_inv published).2.1

theorem callsOnly_checkBlocks {firstHead : Option Int} :
    (pipeline.onNode.checkBlocks pending bound firstHead).CallsOnly (· = "eth_blockNumber") := by
  rw [checkBlocks]
  split
  · trivial
  · have asks : (Transport.direct.send "eth_blockNumber" []).CallsOnly (· = "eth_blockNumber") :=
      CallsOnly.send [] rfl
    have asksHead : pipeline.onNode.headNumber.CallsOnly (· = "eth_blockNumber") :=
      asks.bind fun answer => Asks.lift (Quantity.toInt answer)
    refine (callsOnly_bounded asksHead).bind fun head => ?_
    split
    · trivial
    · split <;> trivial

/-- The methods by which a failed transaction is run again. -/
def IsReplay (method : String) : Prop :=
  method = "eth_getTransactionByHash" ∨ method = "eth_call"

theorem callsOnly_replayCall :
    (pipeline.onNode.replayCall pending).CallsOnly IsReplay := by
  unfold replayCall
  split
  · trivial
  · refine (CallsOnly.send _ (Or.inl rfl)).bind fun found => ?_
    dsimp only
    split
    · trivial
    · refine (Asks.lift _).bind fun sender => ?_
      refine (Asks.lift _).bind fun input => ?_
      refine (Asks.lift _).bind fun recipient => ?_
      refine (Asks.lift _).bind fun value => ?_
      exact (Asks.lift _).bind fun gas => trivial

theorem callsOnly_replayReason {block : Int} :
    (pipeline.onNode.replayReason pending block).CallsOnly IsReplay := by
  have replays : (pipeline.onNode.replay pending block).CallsOnly IsReplay := by
    refine callsOnly_replayCall.bind fun call => ?_
    refine (Asks.lift _).bind fun blockText => ?_
    exact (CallsOnly.send _ (Or.inr rfl)).bind fun answer => trivial
  refine replays.andThen fun outcome => ?_
  split
  · trivial
  · split
    · exact (Asks.lift _).bind fun revert => trivial
    · trivial
  · trivial

theorem callsOnly_revert {block : Int} :
    (pipeline.onNode.revert pending block bound : Activity α).CallsOnly IsReplay := by
  refine Asks.bind trivial fun _ => ?_
  refine Asks.bind ?_ fun reason => trivial
  refine (callsOnly_replayReason.bounded bound.deadline).andThen fun outcome => ?_
  split
  · trivial
  · dsimp only
    split <;> trivial

theorem revert_noResult {block : Int} {ending : Ending α}
    (run : Run (pipeline.revert pending block bound) start labels ending stop) :
    ending.NoResult := by
  rcases Run.bind_inv run with ⟨_, _, _, _, _, replaying, _⟩ | ⟨_, _, abandons⟩
  · rcases Run.bind_inv replaying with ⟨reason, _, _, _, _, reporting, _⟩ | ⟨_, _, abandons⟩
    · rcases Run.tell_inv reporting with ⟨_, noting, _⟩
      rcases Run.tell_inv noting with ⟨_, failing, _⟩
      rw [(Run.done_inv failing).2.1]
      exact Ending.noResult_error
    · exact abandons.noResult
  · exact abandons.noResult

theorem silent_noteMined {block : Int} : Silent (noteMined pending block) := by
  rw [noteMined]
  split <;> trivial

theorem noteMined_inv {block : Int} {ending : Ending Unit}
    (run : Run (noteMined pending block) start labels ending stop) : ending = .ended (.ok ()) := by
  rw [noteMined] at run
  split at run
  · rcases Run.tell_inv run with ⟨_, next, _⟩
    exact (Run.done_inv next).2.1
  · exact (Run.done_inv run).2.1

/-- With a receipt of success a poll goes on; with one of failure it asks only what it takes to run
the transaction again, and ends, as it does with an answer that cannot be read. -/
theorem withReceipt_inv {receipt : Value} {ending : Ending (PendingTransaction × Int)}
    (run : Run (pipeline.onNode.withReceipt pending receipt bound) start labels ending stop) :
    (∃ entries block, receipt = .dict entries ∧ SucceededAt entries block ∧ calls labels = [] ∧
        ending = .ended (.ok (pending.minedAt block entries, block))) ∨
      ending.NoResult ∧ (∀ call ∈ calls labels, IsReplay call.method) ∧
        ((∃ entries, receipt = .dict entries ∧ statusOf entries = .ok 0) ∨
          IsUnreadable receipt) := by
  -- Block and status are read from the receipt; what cannot be read ends the poll.
  have unreadable : ∀ {failure : Failure}, IsUnreadable receipt →
      (Ending.ended (.error failure) : Ending (PendingTransaction × Int)).NoResult ∧
        (∀ call ∈ calls [], IsReplay call.method) ∧
          ((∃ entries, receipt = .dict entries ∧ statusOf entries = .ok 0) ∨
            IsUnreadable receipt) :=
    fun unread => ⟨Ending.noResult_error, List.forall_mem_nil _, Or.inr unread⟩
  unfold withReceipt at run
  rcases Run.lift_bind_inv run with ⟨number, member, readRun⟩ | ⟨failure, missing, rfl, rfl⟩
  · rcases Run.lift_bind_inv readRun with ⟨block, read, noteRun⟩ | ⟨failure, unread, rfl, rfl⟩
    · rcases Run.bind_inv noteRun with ⟨_, noted, _, told, noting, minedRun, rfl⟩ |
        ⟨_, noting, abandons⟩
      · rcases Run.emit_bind_inv minedRun with ⟨rest, lookRun, rfl⟩
        rw [calls_append, calls_of_silent silent_noteMined noting, List.nil_append, calls_told]
        rcases Run.lift_bind_inv lookRun with ⟨word, looked, statusRun⟩ |
          ⟨failure, missing, rfl, rfl⟩
        · rcases Run.lift_bind_inv statusRun with ⟨status, known, lastRun⟩ |
            ⟨failure, unread, rfl, rfl⟩
          · cases receipt with
            | dict entries =>
                have succeeded : statusOf entries = .ok status :=
                  Outcome.bind_eq_ok_iff.mpr ⟨word, looked, known⟩
                by_cases failed : status = 0
                · rw [if_pos failed] at lastRun
                  rw [failed] at succeeded
                  exact Or.inr ⟨revert_noResult lastRun,
                    callsOnly_revert.method_of_mem_calls lastRun, Or.inl ⟨entries, rfl, succeeded⟩⟩
                · rw [if_neg failed] at lastRun
                  rcases Run.done_inv lastRun with ⟨rfl, rfl, _⟩
                  have inBlock : blockOf entries = .ok block :=
                    Outcome.bind_eq_ok_iff.mpr ⟨number, member, read⟩
                  exact Or.inl
                    ⟨entries, block, rfl, ⟨inBlock, status, succeeded, failed⟩, rfl, rfl⟩
            | _ => cases member
          · have noStatus : (receipt.lookup "status" (.text "0x1") >>= Quantity.toInt) =
                .error failure := by
              rw [looked]
              exact unread
            exact Or.inr (unreadable (isUnreadable_of_status noStatus))
        · have noStatus : (receipt.lookup "status" (.text "0x1") >>= Quantity.toInt) =
              .error failure := by
            rw [missing]
            rfl
          exact Or.inr (unreadable (isUnreadable_of_status noStatus))
      · rw [noteMined_inv noting] at abandons
        cases abandons
    · have noBlock : (receipt.member "blockNumber" >>= Quantity.toInt) = .error failure := by
        rw [member]
        exact unread
      exact Or.inr (unreadable (isUnreadable_of_block noBlock))
  · have noBlock : (receipt.member "blockNumber" >>= Quantity.toInt) = .error failure := by
      rw [missing]
      rfl
    exact Or.inr (unreadable (isUnreadable_of_block noBlock))

/-- The methods by which a poll goes on after the question for the receipt. -/
def IsFollowUp (method : String) : Prop :=
  method = "eth_blockNumber" ∨ IsReplay method

theorem callsOnly_withReceipt {receipt : Value} :
    (pipeline.onNode.withReceipt pending receipt bound).CallsOnly IsReplay := by
  unfold withReceipt
  refine (Asks.lift _).bind fun number => (Asks.lift _).bind fun block => ?_
  refine (silent_noteMined.mono fun _ => False.elim).bind fun _ => ?_
  refine Asks.bind trivial fun _ => ?_
  refine (Asks.lift _).bind fun word => (Asks.lift _).bind fun status => ?_
  split
  · exact callsOnly_revert
  · trivial

theorem callsOnly_pollWithReceipt {receipt : Value} {firstHead : Option Int} :
    (pipeline.onNode.pollWithReceipt bound pending receipt firstHead).CallsOnly IsFollowUp := by
  have head : pipeline.onNode.headNumber.CallsOnly IsFollowUp :=
    (CallsOnly.send [] (Or.inl rfl)).bind fun answer => Asks.lift _
  refine (callsOnly_withReceipt.mono fun _ => Or.inr).bind fun mined => ?_
  refine (callsOnly_bounded head).bind fun height => (Asks.lift _).bind fun reached => ?_
  split <;> trivial

theorem callsOnly_pollWithoutReceipt {firstHead : Option Int} :
    (pipeline.onNode.pollWithoutReceipt bound pending firstHead).CallsOnly IsFollowUp := by
  refine (silent_withoutReceipt.mono fun _ => False.elim).bind fun later => ?_
  exact (callsOnly_checkBlocks.mono fun _ => Or.inl).bind fun head => trivial

/-- What a node is asked in a poll, and what the poll shows. -/
inductive Polled (pending : PendingTransaction) (firstHead : Option Int) :
    List NodeCall → Ending Poll → Prop where
  | absent {heads : List NodeCall} {first : Option Int}
      (onlyHeads : ∀ call ∈ heads, call.method = "eth_blockNumber") :
      Polled pending firstHead (.receipt pending.txHash .null :: heads)
        (.ended (.ok (.unconfirmed pending.unmined first)))
  | shallow {receipt : Dict} {block height : Int} {head : Value}
      (succeeded : SucceededAt receipt block) (number : Quantity.toInt head = .ok height)
      (shallow : pending.policy.isReached block height = .ok false) :
      Polled pending firstHead [.receipt pending.txHash (.dict receipt), .head head]
        (.ended (.ok (.unconfirmed (pending.minedAt block receipt) firstHead)))
  | confirmed {receipt : Dict} {block : Int} {head : Value}
      (confirms : Confirms pending.policy receipt block head) :
      Polled pending firstHead [.receipt pending.txHash (.dict receipt), .head head]
        (.ended (.ok (.confirmed (pending.confirmedAt block receipt))))
  | broken {asked : List NodeCall} {ending : Ending Poll} (unconfirmed : Unconfirmed pending asked)
      (noResult : ending.NoResult) : Polled pending firstHead asked ending

theorem unconfirmed_of_noReceipt {asked : List NodeCall}
    (noReceipt : ∀ receipt, .receipt pending.txHash (.dict receipt) ∉ asked) :
    Unconfirmed pending asked := by
  rintro before receipt head after block rfl
  exact absurd (by simp) (noReceipt receipt)

/-- Without the number of a head nothing confirms a transaction. -/
theorem unconfirmed_of_unread {asked : List NodeCall}
    (unread : ∀ head height, Quantity.toInt head = .ok height → .head head ∉ asked) :
    Unconfirmed pending asked := by
  rintro before receipt head after block rfl ⟨_, height, number, _⟩
  exact unread head height number (by simp)

theorem unconfirmed_of_noHead {asked : List NodeCall} (noHead : ∀ head, .head head ∉ asked) :
    Unconfirmed pending asked :=
  unconfirmed_of_unread fun head _ _ => noHead head

/-- A receipt and a head are confirming only as a pair. -/
theorem unconfirmed_of_pair {receipt : Dict} {head : Value}
    (refuted : ∀ block, ¬Confirms pending.policy receipt block head) :
    Unconfirmed pending [.receipt pending.txHash (.dict receipt), .head head] := by
  intro before otherReceipt otherHead after block split
  rcases neighbours_of_pair split with ⟨_, sameReceipt, sameHead, _⟩
  cases NodeCall.answer_of_receipt_eq sameReceipt
  cases NodeCall.answer_of_head_eq sameHead
  exact refuted block

theorem Questioned.of_result {method : String} {params : List Value} {read : Value → Outcome α}
    {asked : List NodeCall} {result : α}
    (questioned : Questioned method params read asked (.ended (.ok result))) :
    ∃ answer, read answer = .ok result ∧ asked = [⟨method, params, some (.ok answer)⟩] := by
  cases questioned with
  | read found => exact ⟨_, found, rfl⟩
  | refused _ noResult => exact absurd rfl (noResult result)
  | failed _ noResult => exact absurd rfl (noResult result)
  | late noResult => exact absurd rfl (noResult result)

/-- A question for the head without a result has not been answered with a number. -/
theorem unread_of_noResult {txHash receipt : Value} {asked : List NodeCall} {ending : Ending Int}
    (questioned : Questioned "eth_blockNumber" [] Quantity.toInt asked ending)
    (noResult : ending.NoResult) (head : Value) (height : Int)
    (number : Quantity.toInt head = .ok height) :
    .head head ∉ NodeCall.receipt txHash receipt :: asked := by
  intro member
  rcases List.mem_cons.mp member with same | inAsked
  · simp [NodeCall.head, NodeCall.receipt] at same
  · cases questioned with
    | read found => exact noResult _ rfl
    | refused unread _ =>
        cases NodeCall.answer_of_head_eq (List.mem_singleton.mp inAsked)
        rw [number] at unread
        cases unread
    | failed noAnswer _ =>
        cases List.mem_singleton.mp inAsked
        exact noAnswer head rfl
    | late _ => cases inAsked

theorem pollWithoutReceipt_inv {firstHead : Option Int} {ending : Ending Poll}
    (run : Run (pipeline.onNode.pollWithoutReceipt bound pending firstHead) start labels ending
      stop) :
    (∀ call ∈ calls labels, call.method = "eth_blockNumber") ∧
      (ending.NoResult ∨ ∃ first, ending = .ended (.ok (.unconfirmed pending.unmined first))) := by
  rcases Run.bind_inv run with ⟨later, before, _, after, withoutRun, checkRun, rfl⟩ |
    ⟨_, withoutRun, abandons⟩
  · cases withoutReceipt_inv withoutRun
    rw [calls_append, calls_of_silent silent_withoutReceipt withoutRun, List.nil_append]
    rcases Run.bind_inv checkRun with ⟨first, heads, _, rest, headRun, lastRun, rfl⟩ |
      ⟨_, headRun, abandons⟩
    · rcases Run.done_inv lastRun with ⟨rfl, rfl, _⟩
      rw [List.append_nil]
      exact ⟨callsOnly_checkBlocks.method_of_mem_calls headRun, Or.inr ⟨first, rfl⟩⟩
    · exact ⟨callsOnly_checkBlocks.method_of_mem_calls headRun, Or.inl abandons.noResult⟩
  · rw [calls_of_silent silent_withoutReceipt withoutRun]
    exact ⟨by simp, Or.inl abandons.noResult⟩

theorem pollWithReceipt_inv {receipt : Value} {firstHead : Option Int} {ending : Ending Poll}
    (run : Run (pipeline.onNode.pollWithReceipt bound pending receipt firstHead) start labels
      ending stop) :
    Polled pending firstHead (.receipt pending.txHash receipt :: calls labels) ending := by
  rcases Run.bind_inv run with ⟨mined, before, _, after, receiptRun, headRun, rfl⟩ |
    ⟨_, receiptRun, abandons⟩
  · rcases withReceipt_inv receiptRun with
      ⟨entries, block, rfl, succeeded, noCalls, same⟩ | ⟨noResult, _, _⟩
    · cases same
      rw [calls_append, noCalls, List.nil_append]
      rcases Run.bind_inv headRun with ⟨height, asked, _, rest, askRun, lastRun, rfl⟩ |
        ⟨early, askRun, abandons⟩
      · rcases (bounded_question_inv askRun).of_result with ⟨head, read, askedHead⟩
        rw [calls_append, askedHead]
        dsimp only at lastRun
        rcases Run.lift_bind_inv lastRun with ⟨reached, compared, lastRun⟩ |
          ⟨failure, incomparable, rfl, rfl⟩
        · cases reached with
          | true =>
              rcases Run.emit_bind_inv lastRun with ⟨_, notedRun, rfl⟩
              rcases Run.emit_bind_inv notedRun with ⟨_, doneRun, rfl⟩
              rcases Run.done_inv doneRun with ⟨rfl, rfl, _⟩
              exact .confirmed ⟨succeeded, height, read, compared⟩
          | false =>
              rcases Run.done_inv lastRun with ⟨rfl, rfl, _⟩
              exact .shallow succeeded read compared
        · refine .broken (unconfirmed_of_pair ?_) Ending.noResult_error
          rintro other ⟨⟨otherBlock, _⟩, otherHeight, otherRead, reached⟩
          rw [succeeded.1, Except.ok.injEq] at otherBlock
          rw [read, Except.ok.injEq] at otherRead
          subst otherBlock otherRead
          exact absurd (incomparable.symm.trans reached) (by simp)
      · have questioned := bounded_question_inv askRun
        refine .broken (unconfirmed_of_unread ?_) abandons.noResult
        exact unread_of_noResult questioned abandons.noResult_early
    · exact absurd rfl (noResult mined)
  · rcases withReceipt_inv receiptRun with ⟨_, _, _, _, _, rfl⟩ | ⟨_, onlyReplays, _⟩
    · cases abandons
    · refine .broken (unconfirmed_of_noHead ?_) abandons.noResult
      intro head member
      rcases List.mem_cons.mp member with same | replayed
      · simp [NodeCall.head, NodeCall.receipt] at same
      · rcases onlyReplays _ replayed with same | same <;> simp [NodeCall.head] at same

/-- What a node is asked in a poll, and what the poll shows. -/
theorem poll_inv {firstHead : Option Int} {ending : Ending Poll}
    (run : Run (pipeline.onNode.poll bound pending firstHead) start labels ending stop) :
    Polled pending firstHead (calls labels) ending := by
  rw [poll] at run
  rcases Run.bind_inv run with ⟨receipt, before, _, after, askRun, restRun, rfl⟩ |
    ⟨early, askRun, abandons⟩
  · rw [calls_append]
    change Run (bounded pending bound (Transport.direct.send _ _)) _ _ _ _ at askRun
    rw [send_eq_question] at askRun
    rcases (bounded_question_inv askRun).of_result with ⟨answer, same, asked⟩
    cases same
    rw [asked]
    split at restRun
    · rcases pollWithoutReceipt_inv restRun with ⟨onlyHeads, noResult | ⟨first, rfl⟩⟩
      · refine .broken (unconfirmed_of_noReceipt ?_) noResult
        intro receipt member
        rcases List.mem_cons.mp member with same | later
        · simp [NodeCall.receipt] at same
        · exact absurd (onlyHeads _ later) (by simp [NodeCall.receipt])
      · exact .absent onlyHeads
    · exact pollWithReceipt_inv restRun
  · change Run (bounded pending bound (Transport.direct.send _ _)) _ _ _ _ at askRun
    rw [send_eq_question] at askRun
    refine .broken (unconfirmed_of_noHead ?_) abandons.noResult
    intro head
    have questioned := bounded_question_inv askRun
    generalize calls labels = asked at questioned ⊢
    cases questioned with
    | read found => cases abandons
    | refused unread _ => cases unread
    | failed _ _ => simp [NodeCall.head]
    | late _ => simp

end Pipeline

end ContractClient
