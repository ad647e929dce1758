import ContractClient.Proofs.Activity.Finish
import ContractClient.Proofs.Transaction.Poll

/-!
# The progress of a wait

A wait goes on from poll to poll. Every poll asks for the receipt, and with a receipt of success it
asks for the head; only a poll that confirms the transaction, or that meets one of a few causes, is
the last one (`Pipeline.Polling`, `Pipeline.polling_wait`). The causes are a receipt of failure, a
bound of time or blocks that has passed, a question without an answer, a cancellation, and an answer
or a policy that says nothing (`Pipeline.Breaks`). A wait does not let its time pass without
polling: besides the questions to the node there is one pause from one poll to the next, no longer
than the policy says (`Pipeline.IsRound`).
-/

namespace ContractClient

namespace Pipeline

variable {α : Type} {pipeline : Pipeline} {pending : PendingTransaction} {bound : WaitBound}
  {txHash : Value} {policy : ConfirmationPolicy} {seen : List NodeCall} {firstHead : Option Int}
  {start stop : Rat} {labels before : List Label}

open Activity

/-- The heads that a poll without a receipt asks for, and the first head that is known then: none
is asked for unless blocks are counted, and then fewer than the bound have passed. -/
inductive Heads (policy : ConfirmationPolicy) :
    (firstHead : Option Int) → List NodeCall → Option Int → Prop where
  | uncounted {firstHead : Option Int} (unlimited : policy.timeoutBlocks = none) :
      Heads policy firstHead [] firstHead
  | first {blocks height : Int} {head : Value} (limited : policy.timeoutBlocks = some blocks)
      (number : Quantity.toInt head = .ok height) : Heads policy none [.head head] (some height)
  | later {blocks first height : Int} {head : Value} (limited : policy.timeoutBlocks = some blocks)
      (number : Quantity.toInt head = .ok height) (near : height - first < blocks) :
      Heads policy (some first) [.head head] (some first)

/-- What is asked in a poll after which a wait goes on. -/
inductive LeavesOpen (txHash : Value) (policy : ConfirmationPolicy) : List NodeCall → Prop where
  /-- There is no receipt. -/
  | absent {firstHead first : Option Int} {heads : List NodeCall}
      (counted : Heads policy firstHead heads first) :
      LeavesOpen txHash policy (.receipt txHash .null :: heads)
  /-- There is a receipt of success, and the head is not deep enough. -/
  | shallow {receipt : Dict} {block height : Int} {head : Value}
      (succeeded : SucceededAt receipt block) (number : Quantity.toInt head = .ok height)
      (shallow : policy.isReached block height = .ok false) :
      LeavesOpen txHash policy [.receipt txHash (.dict receipt), .head head]

/-- A node was asked for the head and answered with a number. -/
def ShowsHead (seen : List NodeCall) (height : Int) : Prop :=
  ∃ head, .head head ∈ seen ∧ Quantity.toInt head = .ok height

/-- Why a wait is over after a poll that does not confirm the transaction. -/
inductive Breaks (txHash : Value) (policy : ConfirmationPolicy) (bound : WaitBound)
    (seen : List NodeCall) (labels : List Label) (stop : Rat) : Prop where
  /-- The receipt says that the transaction has failed. -/
  | reverted {receipt : Dict} (answered : .receipt txHash (.dict receipt) ∈ calls labels)
      (failed : statusOf receipt = .ok 0)
  /-- The time is up. -/
  | expired {limit : Rat} (due : bound.deadline = some limit) (passed : limit ≤ stop)
  /-- As many blocks have passed as the policy allows since an earlier poll. -/
  | outlasted {blocks first height : Int} (limited : policy.timeoutBlocks = some blocks)
      (earlier : ShowsHead seen first) (now : ShowsHead (calls labels) height)
      (passed : blocks ≤ height - first)
  /-- A question to the node fails, or gets no answer. -/
  | unanswered {call : NodeCall} (asked : call ∈ calls labels)
      (noAnswer : ∀ answer, call.answer ≠ some (.ok answer))
  /-- The wait is cancelled between two polls. -/
  | cancelled {seconds pausedAt cancelledAt : Rat}
      (paused : .asked (.sleep seconds) pausedAt cancelledAt .cancelled ∈ labels)
  /-- What the node answers is no receipt. -/
  | noReceipt {answer : Value} (answered : .receipt txHash answer ∈ calls labels)
      (present : answer ≠ .null) (unreadable : IsUnreadable answer)
  /-- What the node answers is no number of a head. -/
  | noHead {answer : Value} {failure : Failure} (answered : .head answer ∈ calls labels)
      (unread : Quantity.toInt answer = .error failure)
  /-- There are a receipt of success and a head, and the policy demands something that does not
  compare to a number of blocks. -/
  | incomparable {receipt : Dict} {block height : Int} {failure : Failure}
      (answered : .receipt txHash (.dict receipt) ∈ calls labels)
      (succeeded : SucceededAt receipt block) (shown : ShowsHead (calls labels) height)
      (undecided : policy.isReached block height = .error failure)

/-- How a wait ends in the poll after those after which it went on. -/
inductive LastPoll (txHash : Value) (policy : ConfirmationPolicy) (bound : WaitBound)
    (seen : List NodeCall) (labels : List Label) (stop : Rat) :
    Ending PendingTransaction → Prop where
  | confirmed {receipt : Dict} {block : Int} {head : Value} {confirmed : PendingTransaction}
      (asked : calls labels = [.receipt txHash (.dict receipt), .head head])
      (confirms : Confirms policy receipt block head) :
      LastPoll txHash policy bound seen labels stop (.ended (.ok confirmed))
  | broken {ending : Ending PendingTransaction} (noResult : ending.NoResult)
      (known : ending ≠ .unfinished) (breaks : Breaks txHash policy bound seen labels stop) :
      LastPoll txHash policy bound seen labels stop ending

/-- A pause that is no longer than the time between two polls, unless that time has no end. -/
def IsPause (policy : ConfirmationPolicy) (query : Query) : Prop :=
  ∃ seconds, query = .sleep seconds ∧
    (policy.pollInterval ≠ .infinite false → seconds ≤ max (secondsOf policy.pollInterval) 0)

/-- In a round of a wait a node is asked a few questions, and then there is one pause at most.
Nothing else takes time. -/
def IsRound (policy : ConfirmationPolicy) (labels : List Label) : Prop :=
  ∃ asked pauses, queries labels = asked ++ pauses ∧
    asked.length ≤ 4 ∧ (∀ query ∈ asked, query.IsCall) ∧
      pauses.length ≤ 1 ∧ ∀ query ∈ pauses, IsPause policy query

/-- A wait consists of polls after which it goes on, as many as there are rounds, unless a poll
before that is the last one. -/
def Polling (txHash : Value) (policy : ConfirmationPolicy) (bound : WaitBound)
    (seen : List NodeCall) (rounds : Nat) (labels : List Label) (stop : Rat)
    (ending : Ending PendingTransaction) : Prop :=
  ∃ (polls : List (List Label)) (last : List Label),
    labels = polls.flatten ++ last ∧ (∀ poll ∈ last :: polls, IsRound policy poll) ∧
      (∀ poll ∈ polls, LeavesOpen txHash policy (calls poll)) ∧
        (polls.length = rounds ∧ last = [] ∧ ending = .unfinished ∨
          polls.length < rounds ∧
            LastPoll txHash policy bound (seen ++ calls polls.flatten) last stop ending)

namespace Breaks

theorem append_left (breaks : Breaks txHash policy bound seen labels stop) (before : List Label) :
    Breaks txHash policy bound seen (before ++ labels) stop := by
  have shown : ∀ {call}, call ∈ calls labels → call ∈ calls (before ++ labels) := by
    intro call member
    rw [calls_append]
    exact List.mem_append_right _ member
  cases breaks with
  | reverted answered failed => exact .reverted (shown answered) failed
  | expired due passed => exact .expired due passed
  | outlasted limited earlier now passed =>
      rcases now with ⟨head, member, number⟩
      exact .outlasted limited earlier ⟨head, shown member, number⟩ passed
  | unanswered asked noAnswer => exact .unanswered (shown asked) noAnswer
  | cancelled paused => exact .cancelled (List.mem_append_right _ paused)
  | noReceipt answered present unreadable => exact .noReceipt (shown answered) present unreadable
  | noHead answered unread => exact .noHead (shown answered) unread
  | incomparable answered succeeded now undecided =>
      rcases now with ⟨head, member, number⟩
      exact .incomparable (shown answered) succeeded ⟨head, shown member, number⟩ undecided

theorem within (breaks : Breaks txHash policy bound seen labels stop) (context : Dict) :
    Breaks txHash policy bound seen (labels.map (Label.within context)) stop := by
  have same := calls_map_within context labels
  cases breaks with
  | reverted answered failed => exact .reverted (same ▸ answered) failed
  | expired due passed => exact .expired due passed
  | outlasted limited earlier now passed => exact .outlasted limited earlier (same ▸ now) passed
  | unanswered asked noAnswer => exact .unanswered (same ▸ asked) noAnswer
  | cancelled paused => exact .cancelled (List.mem_map.mpr ⟨_, paused, rfl⟩)
  | noReceipt answered present unreadable => exact .noReceipt (same ▸ answered) present unreadable
  | noHead answered unread => exact .noHead (same ▸ answered) unread
  | incomparable answered succeeded now undecided =>
      exact .incomparable (same ▸ answered) succeeded (same ▸ now) undecided

end Breaks

section Questions

variable {method : String} {params : List Value} {read : Value → Outcome α} {ending : Ending α}

/-- A question that is not asked at all comes too late. -/
theorem deadline_of_unasked
    (run : Run (bounded pending bound (question method params read)) start labels ending stop)
    (unasked : calls labels = []) : ∃ limit, bound.deadline = some limit ∧ limit ≤ stop := by
  rcases Run.andThen_inv run with ⟨first, before, middle, after, stepRun, follows, rfl⟩
  rw [question_bounded] at stepRun
  have later : middle ≤ stop := by
    cases follows with
    | ended next => exact next.start_le_stop
    | stuck => exact Rat.le_refl
    | unfinished => exact Rat.le_refl
  generalize bound.deadline = deadline at stepRun
  cases stepRun with
  | @late _ limit _ _ _ _ _ passed next =>
      rcases Run.done_inv next with ⟨_, _, rfl⟩
      exact ⟨limit, rfl, Rat.le_trans passed later⟩
  | @ask _ _ _ reply _ _ _ _ _ early closes next =>
      rw [calls_append, List.append_eq_nil_iff] at unasked
      cases reply <;> cases unasked.1
  | stuck endless =>
      rw [calls_append, List.append_eq_nil_iff] at unasked
      cases unasked.1

/-- A question without a result breaks the wait, unless its answer cannot be read. -/
theorem breaks_of_question
    (run : Run (bounded pending bound (question method params read)) start labels ending stop)
    (noResult : ending.NoResult) :
    Breaks txHash policy bound seen labels stop ∨
      ∃ answer failure, ⟨method, params, some (.ok answer)⟩ ∈ calls labels ∧
        read answer = .error failure := by
  have questioned := bounded_question_inv run
  generalize same : calls labels = asked at questioned
  cases questioned with
  | read found => exact absurd rfl (noResult _)
  | @refused answer failure _ unread _ =>
      exact Or.inr ⟨answer, failure, List.mem_cons_self, unread⟩
  | failed noAnswer _ =>
      have asked : _ ∈ calls labels := same ▸ List.mem_cons_self
      exact Or.inl (.unanswered asked noAnswer)
  | late _ =>
      rcases deadline_of_unasked run same with ⟨limit, due, passed⟩
      exact Or.inl (.expired due passed)

theorem breaks_of_head {ending : Ending Int}
    (run : Run (bounded pending bound pipeline.onNode.headNumber) start labels ending stop)
    (noResult : ending.NoResult) : Breaks txHash policy bound seen labels stop := by
  rcases breaks_of_question run noResult with breaks | ⟨answer, failure, answered, unread⟩
  · exact breaks
  · exact .noHead answered unread

end Questions

section Pauses

theorem silent_sleep (seconds : Rat) : Silent (Activity.sleep seconds) :=
  Asks.perform trivial

theorem silent_pause : Silent (pause pending bound) := by
  rw [pause]
  split
  · exact silent_sleep _
  · intro now
    change CallsOnly _ (ite _ _ _)
    split
    · exact silent_timeOut _ _
    · exact silent_sleep _

variable {ending : Ending Unit}

theorem sleep_inv {seconds : Rat}
    (run : Run (Activity.sleep seconds) start labels ending stop) :
    queries labels = [.sleep (max seconds 0)] ∧
      (ending = .ended (.ok ()) ∨ ending = .ended (.error .cancelled) ∧
        .asked (.sleep (max seconds 0)) start stop .cancelled ∈ labels) := by
  cases run with
  | stuck endless => cases endless
  | ask early closes next =>
      cases closes with
      | answered =>
          rcases Run.done_inv next with ⟨rfl, rfl, rfl⟩
          exact ⟨rfl, Or.inl rfl⟩
      | expired due => cases due
      | cancelled =>
          rcases Run.done_inv next with ⟨rfl, rfl, rfl⟩
          exact ⟨rfl, Or.inr ⟨rfl, List.mem_cons_self⟩⟩

theorem isPause_pauseWithin (policy : ConfirmationPolicy) (remaining : Rat) :
    IsPause policy (.sleep (max (pauseWithin policy.pollInterval remaining) 0)) := by
  refine ⟨_, rfl, fun finite => ?_⟩
  have shorter : pauseWithin policy.pollInterval remaining ≤ secondsOf policy.pollInterval := by
    unfold pauseWithin
    split
    · next endless => exact absurd endless finite
    · grind
  grind

/-- Before the next poll there is one pause, unless the time is up. -/
theorem pause_inv (run : Run (pause pending bound) start labels ending stop) :
    (∃ seconds, IsPause pending.policy (.sleep (max seconds 0)) ∧
        Run (Activity.sleep seconds) start labels ending stop) ∨
      ∃ failure limit, ending = .ended (.error failure) ∧ queries labels = [] ∧
        bound.deadline = some limit ∧ limit ≤ stop := by
  rw [pause] at run
  split at run
  · exact Or.inl ⟨_, ⟨_, rfl, fun _ => Rat.le_refl⟩, run⟩
  · next limit due =>
      cases run with
      | clock next =>
          change Run (ite _ _ _) _ _ _ _ at next
          split at next
          · next passed =>
              have reached : limit ≤ start := by grind
              have later := next.start_le_stop
              rcases timeOut_inv next with ⟨failure, rfl⟩
              have silent : (timeOut pending (bound.timeout.map .float) : Activity Unit).FinishesIn
                  0 := trivial
              have quiet := List.eq_nil_of_length_eq_zero
                (Nat.le_zero.mp (silent.length_queries_le next))
              exact Or.inr ⟨failure, limit, rfl, quiet, due, Rat.le_trans reached later⟩
          · exact Or.inl ⟨_, isPause_pauseWithin _ _, next⟩

/-- A pause breaks the wait unless it comes to its end. -/
theorem breaks_of_pause (run : Run (pause pending bound) start labels ending stop) :
    ending = .ended (.ok ()) ∨
      ∃ failure, ending = .ended (.error failure) ∧
        Breaks txHash policy bound seen labels stop := by
  rcases pause_inv run with ⟨seconds, _, sleeping⟩ | ⟨failure, limit, rfl, _, due, passed⟩
  · rcases (sleep_inv sleeping).2 with ended | ⟨cancelled, paused⟩
    · exact Or.inl ended
    · exact Or.inr ⟨_, cancelled, .cancelled paused⟩
  · exact Or.inr ⟨failure, rfl, .expired due passed⟩

theorem queries_pause (run : Run (pause pending bound) start labels ending stop) :
    (queries labels).length ≤ 1 ∧ ∀ query ∈ queries labels, IsPause pending.policy query := by
  rcases pause_inv run with ⟨seconds, short, sleeping⟩ | ⟨_, _, _, quiet, _⟩
  · rw [(sleep_inv sleeping).1]
    exact ⟨Nat.le_refl 1, List.forall_mem_singleton.mpr short⟩
  · simp [quiet]

end Pauses

/-- A poll without a receipt goes on with the heads that it has asked for, or breaks the wait. -/
theorem checkBlocks_inv {ending : Ending (Option Int)}
    (shown : ∀ first ∈ firstHead, ShowsHead seen first)
    (run : Run (pipeline.onNode.checkBlocks pending bound firstHead) start labels ending stop) :
    (∃ first, ending = .ended (.ok first) ∧
        Heads pending.policy firstHead (calls labels) first) ∨
      ending.NoResult ∧ Breaks txHash pending.policy bound seen labels stop := by
  rw [checkBlocks] at run
  split at run
  · next unlimited =>
      rcases Run.done_inv run with ⟨rfl, rfl, _⟩
      exact Or.inl ⟨firstHead, rfl, .uncounted unlimited⟩
  · next blocks limited =>
      rcases Run.bind_inv run with ⟨height, before, _, after, headRun, restRun, rfl⟩ |
        ⟨early, headRun, abandons⟩
      · rcases (bounded_question_inv headRun).of_result with ⟨head, number, asked⟩
        split at restRun
        · rcases Run.done_inv restRun with ⟨rfl, rfl, _⟩
          rw [List.append_nil, asked]
          exact Or.inl ⟨_, rfl, .first limited number⟩
        · next first =>
            split at restRun
            · next passed =>
                rcases timeOut_inv restRun with ⟨failure, rfl⟩
                have now : ShowsHead (calls (before ++ after)) height := by
                  refine ⟨head, ?_, number⟩
                  rw [calls_append, asked]
                  exact List.mem_cons_self
                exact Or.inr ⟨Ending.noResult_error,
                  .outlasted limited (shown first rfl) now passed⟩
            · next near =>
                rcases Run.done_inv restRun with ⟨rfl, rfl, _⟩
                rw [List.append_nil, asked]
                exact Or.inl ⟨_, rfl, .later limited number (Int.not_le.mp near)⟩
      · exact Or.inr ⟨abandons.noResult, breaks_of_head headRun abandons.noResult_early⟩

/-- How a poll ends: the wait goes on with the same transaction and a first head that was seen, or
the poll confirms the transaction, or it breaks the wait. -/
inductive PollEnds (pending : PendingTransaction) (bound : WaitBound) (seen : List NodeCall)
    (labels : List Label) (stop : Rat) : Ending Poll → Prop where
  | goesOn {later : PendingTransaction} {first : Option Int}
      (leavesOpen : LeavesOpen pending.txHash pending.policy (calls labels))
      (txHash : later.txHash = pending.txHash) (policy : later.policy = pending.policy)
      (shown : ∀ height ∈ first, ShowsHead (seen ++ calls labels) height) :
      PollEnds pending bound seen labels stop (.ended (.ok (.unconfirmed later first)))
  | confirmed {receipt : Dict} {block : Int} {head : Value} {confirmed : PendingTransaction}
      (asked : calls labels = [.receipt pending.txHash (.dict receipt), .head head])
      (confirms : Confirms pending.policy receipt block head) :
      PollEnds pending bound seen labels stop (.ended (.ok (.confirmed confirmed)))
  | broken {ending : Ending Poll} (noResult : ending.NoResult)
      (breaks : Breaks pending.txHash pending.policy bound seen labels stop) :
      PollEnds pending bound seen labels stop ending

section Polls

variable {ending : Ending Poll} {asking : List Label}
  (shown : ∀ first ∈ firstHead, ShowsHead seen first)

include shown

theorem pollEnds_withoutReceipt (asked : calls asking = [.receipt pending.txHash .null])
    (run : Run (pipeline.onNode.pollWithoutReceipt bound pending firstHead) start labels ending
      stop) : PollEnds pending bound seen (asking ++ labels) stop ending := by
  rcases Run.bind_inv run with ⟨later, before, _, after, withoutRun, checkRun, rfl⟩ |
    ⟨_, withoutRun, abandons⟩
  · cases withoutReceipt_inv withoutRun
    have silent := calls_of_silent silent_withoutReceipt withoutRun
    rw [← List.append_assoc]
    rcases Run.bind_pure_inv checkRun with ⟨early, headRun, follows⟩
    rcases checkBlocks_inv shown headRun with
      ⟨first, rfl, counted⟩ | ⟨noResult, breaks⟩
    · rcases follows with ⟨_, same, rfl⟩ | abandons
      · cases same
        have all : calls (asking ++ before ++ after) =
            .receipt pending.txHash .null :: calls after := by
          simp [asked, silent]
        refine .goesOn (all ▸ .absent counted) rfl rfl ?_
        intro height known
        rw [all]
        generalize calls after = heads at counted
        cases counted with
        | uncounted unlimited =>
            rcases shown height known with ⟨head, member, number⟩
            exact ⟨head, List.mem_append_left _ member, number⟩
        | first limited number =>
            cases known
            exact ⟨_, by simp, number⟩
        | later limited number near =>
            rcases shown height known with ⟨head, member, number⟩
            exact ⟨head, List.mem_append_left _ member, number⟩
      · cases abandons
    · rcases follows with ⟨_, rfl, _⟩ | abandons
      · exact absurd rfl (noResult _)
      · exact .broken abandons.noResult (breaks.append_left (asking ++ before))
  · rw [withoutReceipt_inv withoutRun] at abandons
    cases abandons

theorem pollEnds_withReceipt {receipt : Value} (found : receipt ≠ .null)
    (asked : calls asking = [.receipt pending.txHash receipt])
    (run : Run (pipeline.onNode.pollWithReceipt bound pending receipt firstHead) start labels ending
      stop) : PollEnds pending bound seen (asking ++ labels) stop ending := by
  rcases Run.bind_inv run with ⟨mined, before, _, after, receiptRun, headRun, rfl⟩ |
    ⟨_, receiptRun, abandons⟩
  · rcases withReceipt_inv receiptRun with
      ⟨entries, block, rfl, succeeded, noCalls, same⟩ | ⟨noResult, _⟩
    · cases same
      rw [← List.append_assoc]
      rcases Run.bind_inv headRun with ⟨height, heads, _, rest, askRun, lastRun, rfl⟩ |
        ⟨early, askRun, abandons⟩
      · rcases (bounded_question_inv askRun).of_result with ⟨head, read, askedHead⟩
        have all : calls (asking ++ before ++ (heads ++ rest)) =
            .receipt pending.txHash (.dict entries) :: .head head :: calls rest := by
          simp [asked, noCalls, askedHead, NodeCall.head]
        dsimp only at lastRun
        rcases Run.lift_bind_inv lastRun with ⟨reached, compared, lastRun⟩ |
          ⟨failure, incomparable, rfl, rfl⟩
        · cases reached with
          | true =>
              rcases Run.emit_bind_inv lastRun with ⟨_, notedRun, rfl⟩
              rcases Run.emit_bind_inv notedRun with ⟨_, doneRun, rfl⟩
              rcases Run.done_inv doneRun with ⟨rfl, rfl, _⟩
              exact .confirmed all ⟨succeeded, height, read, compared⟩
          | false =>
              rcases Run.done_inv lastRun with ⟨rfl, rfl, _⟩
              refine .goesOn (all ▸ .shallow succeeded read compared) rfl rfl ?_
              intro first known
              rcases shown first known with ⟨head, member, number⟩
              exact ⟨head, List.mem_append_left _ member, number⟩
        · refine .broken Ending.noResult_error (.incomparable ?_ succeeded ?_ incomparable)
          · rw [all]
            exact List.mem_cons_self
          · refine ⟨head, ?_, read⟩
            rw [all]
            exact List.mem_cons_of_mem _ List.mem_cons_self
      · refine .broken abandons.noResult (Breaks.append_left ?_ (asking ++ before))
        exact breaks_of_head askRun abandons.noResult_early
    · exact absurd rfl (noResult mined)
  · have answered : .receipt pending.txHash receipt ∈ calls (asking ++ labels) := by
      rw [calls_append, asked]
      exact List.mem_cons_self
    rcases withReceipt_inv receiptRun with ⟨_, _, _, _, _, rfl⟩ |
      ⟨_, _, ⟨entries, rfl, failed⟩ | unreadable⟩
    · cases abandons
    · exact .broken abandons.noResult (.reverted answered failed)
    · exact .broken abandons.noResult (.noReceipt answered found unreadable)

theorem pollEnds_poll
    (run : Run (pipeline.onNode.poll bound pending firstHead) start labels ending stop) :
    PollEnds pending bound seen labels stop ending := by
  rw [poll] at run
  rcases Run.bind_inv run with ⟨receipt, asking, _, after, askRun, restRun, rfl⟩ |
    ⟨early, askRun, abandons⟩
  · change Run (bounded pending bound (Transport.direct.send _ _)) _ _ _ _ at askRun
    rw [send_eq_question] at askRun
    rcases (bounded_question_inv askRun).of_result with ⟨answer, same, asked⟩
    cases same
    split at restRun
    · exact pollEnds_withoutReceipt shown asked restRun
    · next found => exact pollEnds_withReceipt shown found asked restRun
  · change Run (bounded pending bound (Transport.direct.send _ _)) _ _ _ _ at askRun
    rw [send_eq_question] at askRun
    rcases breaks_of_question askRun abandons.noResult_early with breaks | ⟨_, _, _, unread⟩
    · exact .broken abandons.noResult breaks
    · cases unread

end Polls

section Finishing

variable {limit : Nat}

theorem finishesIn_bounded {step : Activity α} (finishes : step.FinishesIn limit) :
    (bounded pending bound step).FinishesIn limit := by
  apply (finishes.bounded bound.deadline).andThen_silent
  intro outcome
  cases outcome with
  | ok value => trivial
  | error failure =>
      dsimp only
      split <;> trivial

theorem finishesIn_headNumber : pipeline.onNode.headNumber.FinishesIn 1 :=
  (FinishesIn.send _ _).bind fun _ => FinishesIn.lift _

theorem finishesIn_replayCall : (pipeline.onNode.replayCall pending).FinishesIn 1 := by
  unfold replayCall
  split
  · trivial
  · refine (FinishesIn.send _ _).bind fun found => ?_
    dsimp only
    split
    · trivial
    · refine (FinishesIn.lift _).bind fun sender => (FinishesIn.lift _).bind fun input => ?_
      refine (FinishesIn.lift _).bind fun recipient => (FinishesIn.lift _).bind fun value => ?_
      exact (FinishesIn.lift _).bind fun _ => trivial

theorem finishesIn_replayReason {block : Int} :
    (pipeline.onNode.replayReason pending block).FinishesIn 2 := by
  have replays : (pipeline.onNode.replay pending block).FinishesIn 2 := by
    refine finishesIn_replayCall.bind fun call => (FinishesIn.lift _).bind fun blockText => ?_
    exact (FinishesIn.send _ _).bind fun _ => trivial
  refine replays.andThen_silent fun outcome => ?_
  split
  · trivial
  · split
    · exact (FinishesIn.lift _).bind fun _ => trivial
    · trivial
  · trivial

theorem finishesIn_revert {block : Int} :
    (pipeline.onNode.revert pending block bound : Activity α).FinishesIn 2 := by
  have replays : (pipeline.onNode.replayReason pending block).FinishesIn 2 :=
    finishesIn_replayReason
  refine (FinishesIn.emit _).bind fun _ => ?_
  refine ((replays.bounded bound.deadline).andThen_silent fun outcome => ?_).bind fun reason => ?_
  · split
    · trivial
    · dsimp only
      split <;> trivial
  · trivial

theorem finishesIn_pollWithoutReceipt :
    (pipeline.onNode.pollWithoutReceipt bound pending firstHead).FinishesIn 1 := by
  have without : (withoutReceipt pending).FinishesIn 0 := by
    rw [withoutReceipt]
    split <;> trivial
  have checks : ∀ later, (pipeline.onNode.checkBlocks later bound firstHead).FinishesIn 1 := by
    intro later
    rw [checkBlocks]
    split
    · trivial
    · refine (finishesIn_bounded finishesIn_headNumber).bind fun head => ?_
      split
      · trivial
      · split <;> trivial
  exact without.bind fun later => (checks later).bind fun first => FinishesIn.lift _

theorem finishesIn_pollWithReceipt {receipt : Value} :
    (pipeline.onNode.pollWithReceipt bound pending receipt firstHead).FinishesIn 3 := by
  have mines : (pipeline.onNode.withReceipt pending receipt bound).FinishesIn 2 := by
    unfold withReceipt
    have notes : ∀ block, (noteMined pending block).FinishesIn 0 := by
      intro block
      rw [noteMined]
      split <;> trivial
    refine (FinishesIn.lift _).bind fun number => (FinishesIn.lift _).bind fun block => ?_
    refine (notes _).bind fun _ => (FinishesIn.emit _).bind fun _ => ?_
    refine (FinishesIn.lift _).bind fun word => (FinishesIn.lift _).bind fun status => ?_
    split
    · exact finishesIn_revert
    · trivial
  refine mines.bind fun mined => (finishesIn_bounded finishesIn_headNumber).bind fun height => ?_
  refine (FinishesIn.lift _).bind fun reached => ?_
  split <;> trivial

theorem finishesIn_poll : (pipeline.onNode.poll bound pending firstHead).FinishesIn 4 := by
  rw [poll]
  refine (finishesIn_bounded (FinishesIn.send _ _)).bind fun receipt => ?_
  split
  · exact finishesIn_pollWithoutReceipt.mono (by decide)
  · exact finishesIn_pollWithReceipt

end Finishing

section Waits

variable {rounds : Nat} {poll last : List Label} {ending : Ending PendingTransaction}

theorem IsRound.nil : IsRound policy [] :=
  ⟨[], [], rfl, Nat.zero_le 4, List.forall_mem_nil _, Nat.zero_le 1, List.forall_mem_nil _⟩

theorem isRound_of_poll {found : Ending Poll} {paused : List Label}
    (run : Run (pipeline.onNode.poll bound pending firstHead) start labels found stop)
    (once : (queries paused).length ≤ 1)
    (short : ∀ query ∈ queries paused, IsPause pending.policy query) :
    IsRound pending.policy (labels ++ paused) :=
  ⟨queries labels, queries paused, queries_append labels paused,
    finishesIn_poll.length_queries_le run, finishesIn_poll.isCall_of_mem_queries run, once, short⟩

theorem Polling.of_last (isRound : IsRound policy last)
    (lastPoll : LastPoll txHash policy bound seen last stop ending) :
    Polling txHash policy bound seen (rounds + 1) last stop ending :=
  ⟨[], last, rfl, List.forall_mem_singleton.mpr isRound, List.forall_mem_nil _,
    Or.inr ⟨Nat.succ_pos rounds, by simpa using lastPoll⟩⟩

/-- A poll after which the wait goes on stands before the rest. -/
theorem Polling.cons (isRound : IsRound policy poll)
    (leavesOpen : LeavesOpen txHash policy (calls poll))
    (rest : Polling txHash policy bound (seen ++ calls poll) rounds labels stop ending) :
    Polling txHash policy bound seen (rounds + 1) (poll ++ labels) stop ending := by
  rcases rest with ⟨polls, last, rfl, allRounds, leaveOpen, ends⟩
  rw [List.forall_mem_cons] at allRounds
  refine ⟨poll :: polls, last, by simp, ?_,
    List.forall_mem_cons.mpr ⟨leavesOpen, leaveOpen⟩, by simpa using ends⟩
  exact List.forall_mem_cons.mpr ⟨allRounds.1, List.forall_mem_cons.mpr ⟨isRound, allRounds.2⟩⟩

/-- A wait goes on within a context as it does without one. -/
theorem Polling.within (polling : Polling txHash policy bound seen rounds labels stop ending)
    (context : Dict) :
    Polling txHash policy bound seen rounds (labels.map (Label.within context)) stop ending := by
  have sameCalls := calls_map_within context
  rcases polling with ⟨polls, last, rfl, isRound, leaveOpen, ends⟩
  refine ⟨polls.map (List.map (Label.within context)), last.map (Label.within context), ?_, ?_, ?_,
    ?_⟩
  · rw [List.map_append, List.map_flatten]
  · rw [← List.map_cons]
    intro poll member
    rcases List.mem_map.mp member with ⟨own, inPolls, rfl⟩
    rw [IsRound, queries_map_within]
    exact isRound own inPolls
  · intro poll member
    rcases List.mem_map.mp member with ⟨own, inPolls, rfl⟩
    rw [sameCalls]
    exact leaveOpen own inPolls
  · rw [List.length_map, ← List.map_flatten, sameCalls]
    rcases ends with ⟨all, rfl, rfl⟩ | ⟨fewer, lastPoll⟩
    · exact Or.inl ⟨all, rfl, rfl⟩
    · refine Or.inr ⟨fewer, ?_⟩
      cases lastPoll with
      | confirmed asked confirms =>
          rw [← sameCalls] at asked
          exact .confirmed asked confirms
      | broken noResult known breaks => exact .broken noResult known (breaks.within context)

theorem polling_watch (shown : ∀ first ∈ firstHead, ShowsHead seen first)
    (run : Run (pipeline.onNode.watch bound rounds pending firstHead) start labels ending stop) :
    Polling pending.txHash pending.policy bound seen rounds labels stop ending := by
  -- Every poll adds to what has been seen, so the induction is for all that may have been.
  induction rounds generalizing pending firstHead seen start labels with
  | zero =>
      cases run
      exact ⟨[], [], rfl, List.forall_mem_singleton.mpr .nil, List.forall_mem_nil _,
        Or.inl ⟨rfl, rfl, rfl⟩⟩
  | succ rounds ih =>
      rw [watch] at run
      rcases Run.bind_inv run with ⟨poll, polled, _, rest, pollRun, restRun, rfl⟩ |
        ⟨early, pollRun, abandons⟩
      · cases pollEnds_poll shown pollRun with
        | @confirmed receipt block head confirmed asked confirms =>
            rcases Run.done_inv restRun with ⟨rfl, rfl, _⟩
            have noPause : (queries []).length ≤ 1 := Nat.zero_le 1
            have isRound := isRound_of_poll pollRun noPause (List.forall_mem_nil _)
            rw [List.append_nil] at isRound ⊢
            exact .of_last isRound (.confirmed asked confirms)
        | @goesOn later first leavesOpen sameHash samePolicy known =>
            rcases Run.bind_inv restRun with ⟨_, paused, _, after, pauseRun, watchRun, rfl⟩ |
              ⟨early, pauseRun, abandons⟩
            · have both : calls (polled ++ paused) = calls polled := by
                rw [calls_append, calls_of_silent silent_pause pauseRun, List.append_nil]
              have pauses := queries_pause pauseRun
              rw [samePolicy] at pauses
              rw [← both] at leavesOpen known
              have polling := ih known watchRun
              rw [sameHash, samePolicy] at polling
              rw [← List.append_assoc]
              exact .cons (isRound_of_poll pollRun pauses.1 pauses.2) leavesOpen polling
            · have pauses := queries_pause pauseRun
              rw [samePolicy] at pauses
              have isRound := isRound_of_poll pollRun pauses.1 pauses.2
              rcases breaks_of_pause pauseRun with rfl | ⟨failure, rfl, breaks⟩
              · cases abandons
              · refine .of_last isRound (.broken abandons.noResult ?_ (breaks.append_left polled))
                exact abandons.ne_unfinished (by simp)
        | broken noResult _ => exact absurd rfl (noResult poll)
      · have finished := finishesIn_poll.ne_unfinished pollRun
        have noPause : (queries []).length ≤ 1 := Nat.zero_le 1
        have isRound := isRound_of_poll pollRun noPause (List.forall_mem_nil _)
        rw [List.append_nil] at isRound
        cases pollEnds_poll shown pollRun with
        | broken _ breaks =>
            exact .of_last isRound
              (.broken abandons.noResult (abandons.ne_unfinished finished) breaks)
        | _ => cases abandons

/-- A wait goes on from poll to poll until it is confirmed or has a cause to end. -/
theorem polling_wait
    (run : Run (pipeline.onNode.wait pending rounds) start labels ending stop) :
    Polling pending.txHash pending.policy (WaitBound.start pending.policy.timeout start) [] rounds
      labels stop ending := by
  rcases Run.within_map_inv run with ⟨own, waiting, rfl⟩
  cases waiting with
  | clock watching => exact Polling.within (polling_watch (by simp) watching) _

end Waits

end Pipeline

end ContractClient
