import ContractClient.Proofs.Transaction.Life

/-!
# Failed transactions

A wait that finds the receipt of a failed transaction ends with the report of the failure, whatever
the replay of the transaction meets, except in the ways that `Pipeline.Derails` lists: then it ends
with the failure that the replay met (`Pipeline.reports_failure_unless_derailed`). In either case
the transaction is known to be reverted.
-/

namespace ContractClient.Pipeline

variable {α β : Type} {pipeline : Pipeline} {pending later : PendingTransaction}
  {bound : WaitBound} {decoder : RevertDecoder} {receipt : Dict} {block : Int}
  {start stop : Rat} {labels : List Label} {before replay : List NodeCall}

open Activity PendingTransaction

/-- What becomes of a failed transaction after its replay. -/
inductive Aftermath (decoder : RevertDecoder) (failed : PendingTransaction)
    (replay : List NodeCall) (labels : List Label) : Ending α → Prop where
  | reported {reason : Option String}
      (found : settled (verdict decoder replay.getLast?) = .ok reason)
      (last : (progress labels).getLast? = some { failed with revertReason := reason }) :
      Aftermath decoder failed replay labels
        (.ended (.error (.fault (.transactionReverted failed.txHash reason failed.receipt))))
  | derailed {failure : Failure}
      (unsettled : settled (verdict decoder replay.getLast?) = .error failure)
      (last : (progress labels).getLast? = some failed) :
      Aftermath decoder failed replay labels (.ended (.error failure))

namespace Aftermath

variable {failed : PendingTransaction}

theorem abandon {early : Ending α} {ending : Ending β}
    (aftermath : Aftermath decoder failed replay labels early) (abandons : Abandons early ending) :
    Aftermath decoder failed replay labels ending := by
  cases aftermath with
  | reported found last =>
      cases abandons
      exact .reported found last
  | derailed unsettled last =>
      cases abandons
      exact .derailed unsettled last

theorem prepend {told : List Label} {ending : Ending α}
    (aftermath : Aftermath decoder failed replay labels ending) :
    Aftermath decoder failed replay (told ++ labels) ending := by
  cases aftermath with
  | reported found last => exact .reported found (by simp [last])
  | derailed unsettled last => exact .derailed unsettled (by simp [last])

theorem noResult {ending : Ending α} (aftermath : Aftermath decoder failed replay labels ending) :
    ending.NoResult := by
  intro result same
  cases aftermath <;> cases same

end Aftermath

theorem progress_reasonInTime {ending : Ending (Option String)}
    (run : Run (pipeline.onNode.reasonInTime pending block bound) start labels ending stop) :
    progress labels = [] := by
  have upholds : Upholds Never (fun _ => True) (fun _ _ => True)
      (pipeline.onNode.reasonInTime pending block bound) pending :=
    upholds_reasonInTime (fun _ _ _ => trivial) fun _ => trivial
  have chain := (upholds.of_run run fun _ _ _ _ => trivial).1
  cases updates : progress labels with
  | nil => rfl
  | cons first rest =>
      rw [updates] at chain
      exact absurd (List.isChain_cons_cons.mp chain).1 not_false

theorem aftermath_revert {ending : Ending α} (early : ∀ limit ∈ bound.deadline, start < limit)
    (uncancelled : ∀ label ∈ labels, label.Uncancelled) (answered : ending ≠ .stuck)
    (run : Run (pipeline.onNode.revert pending block bound) start labels ending stop) :
    Aftermath pipeline.decoder { pending with state := .reverted } (calls labels) labels
      ending := by
  rw [revert_eq] at run
  rcases Run.emit_bind_inv run with ⟨rest, replayRun, rfl⟩
  rcases Run.bind_inv replayRun with ⟨reason, before, middle, after, reasonRun, reportRun, rfl⟩ |
    ⟨unreported, reasonRun, abandons⟩
  · rcases List.forall_mem_append.mp (List.forall_mem_cons.mp uncancelled).2 with
      ⟨uncancelledBefore, _⟩
    rcases reasonInTime_inv early uncancelledBefore reasonRun with stuck | found
    · cases stuck
    · rcases Run.emit_bind_inv reportRun with ⟨_, noteRun, rfl⟩
      rcases Run.emit_bind_inv noteRun with ⟨_, doneRun, rfl⟩
      rcases Run.done_inv doneRun with ⟨rfl, rfl, _⟩
      refine .reported ?_ (by simp [progress_reasonInTime reasonRun])
      simpa using (Ending.ended.inj found).symm
  · rcases reasonInTime_inv early (List.forall_mem_cons.mp uncancelled).2 reasonRun with rfl | rfl
    · cases abandons
      exact absurd rfl answered
    · generalize outcome : settled _ = found at abandons
      cases abandons
      refine .derailed outcome ?_
      simp [progress_reasonInTime reasonRun]

theorem noteMined_bind_inv {next : Unit → Activity α} {ending : Ending α}
    (run : Run (noteMined pending block >>= next) start labels ending stop) :
    ∃ told own, Run (next ()) start own ending stop ∧ labels = told ++ own ∧ calls told = [] := by
  rw [noteMined] at run
  split at run
  · rcases Run.emit_bind_inv run with ⟨own, nextRun, rfl⟩
    exact ⟨[_], own, nextRun, rfl, rfl⟩
  · exact ⟨[], labels, run, rfl, rfl⟩

theorem failed_withReceipt_inv (failed : FailedAt receipt block)
    {ending : Ending (PendingTransaction × Int)}
    (run : Run (pipeline.onNode.withReceipt pending (.dict receipt) bound) start labels ending
      stop) :
    ∃ told own, Run (pipeline.onNode.revert (pending.minedAt block receipt) block bound :
        Activity (PendingTransaction × Int)) start own ending stop ∧
      labels = told ++ own ∧ calls told = [] := by
  rcases Outcome.bind_eq_ok_iff.mp failed.1 with ⟨number, member, read⟩
  rcases Outcome.bind_eq_ok_iff.mp failed.2 with ⟨word, looked, known⟩
  unfold withReceipt at run
  rcases Run.lift_bind_inv run with ⟨_, found, readRun⟩ | ⟨_, missing, _⟩
  · cases member.symm.trans found
    rcases Run.lift_bind_inv readRun with ⟨_, found, noteRun⟩ | ⟨_, unread, _⟩
    · cases read.symm.trans found
      rcases noteMined_bind_inv noteRun with ⟨told, rest, minedRun, rfl, noCalls⟩
      rcases Run.emit_bind_inv minedRun with ⟨own, lookRun, rfl⟩
      rcases Run.lift_bind_inv lookRun with ⟨_, found, statusRun⟩ | ⟨_, missing, _⟩
      · cases looked.symm.trans found
        rcases Run.lift_bind_inv statusRun with ⟨_, found, revertRun⟩ | ⟨_, unread, _⟩
        · cases known.symm.trans found
          rw [if_pos rfl] at revertRun
          refine ⟨told ++ [.told start (.progress (pending.minedAt block receipt))], own, revertRun,
            by simp [Value.entries], ?_⟩
          rw [calls_append, noCalls]
          rfl
        · cases known.symm.trans unread
      · cases looked.symm.trans missing
    · cases read.symm.trans unread
  · cases member.symm.trans missing

theorem early_of_bounded_send {method : String} {params : List Value} {answer : Value}
    (run : Run (bounded pending bound (Transport.direct.send method params)) start labels
      (.ended (.ok answer)) stop) : ∀ limit ∈ bound.deadline, stop < limit := by
  rcases Run.andThen_inv run with ⟨first, before, middle, after, stepRun, follows, rfl⟩
  cases follows with
  | @ended outcome _ _ _ _ next =>
      cases outcome with
      | ok result =>
          cases next
          rw [send_eq_question, question_bounded] at stepRun
          generalize bound.deadline = deadline at stepRun ⊢
          cases stepRun with
          | late passed expired => cases (Run.done_inv expired).2.1
          | ask early closes doneRun =>
              rcases Run.done_inv doneRun with ⟨rfl, same, rfl⟩
              rcases replied_ok_inv (Ending.ended.inj same).symm with ⟨_, replied, _⟩
              cases closes with
              | answered asked duration inTime => exact inTime
              | expired due => cases replied
              | cancelled asked inTime => cases replied
      | error failure =>
          dsimp only at next
          split at next
          · rcases timeOut_inv next with ⟨_, same⟩
            cases same
          · cases next

theorem aftermath_pollWithReceipt {firstHead : Option Int} {ending : Ending Poll}
    (failed : FailedAt receipt block) (early : ∀ limit ∈ bound.deadline, start < limit)
    (uncancelled : ∀ label ∈ labels, label.Uncancelled) (answered : ending ≠ .stuck)
    (run : Run (pipeline.onNode.pollWithReceipt bound pending (.dict receipt) firstHead) start
      labels ending stop) :
    Aftermath pipeline.decoder { pending.minedAt block receipt with state := .reverted }
      (calls labels) labels ending := by
  rcases Run.bind_inv run with ⟨mined, before, _, after, receiptRun, _⟩ |
    ⟨first, receiptRun, abandons⟩
  · rcases failed_withReceipt_inv failed receiptRun with ⟨_, _, revertRun, _⟩
    exact absurd rfl (revert_noResult revertRun mined)
  · rcases failed_withReceipt_inv failed receiptRun with ⟨told, own, revertRun, rfl, noCalls⟩
    have uncancelledOwn := (List.forall_mem_append.mp uncancelled).2
    have aftermath :=
      aftermath_revert early uncancelledOwn (abandons.ne_stuck answered) revertRun
    rw [calls_append, noCalls, List.nil_append]
    exact aftermath.prepend.abandon abandons

/-- Only the first answer in a poll may be a receipt. -/
theorem aftermath_poll {firstHead : Option Int} {ending : Ending Poll}
    (failed : FailedAt receipt block) (uncancelled : ∀ label ∈ labels, label.Uncancelled)
    (answered : ending ≠ .stuck)
    (asked : calls labels = before ++ .receipt pending.txHash (.dict receipt) :: replay)
    (run : Run (pipeline.onNode.poll bound pending firstHead) start labels ending stop) :
    Aftermath pipeline.decoder { pending.minedAt block receipt with state := .reverted } replay
      labels ending := by
  have isReceipt : ¬IsFollowUp (NodeCall.receipt pending.txHash (.dict receipt)).method := by
    simp [IsFollowUp, IsReplay, NodeCall.receipt]
  rw [poll] at run
  rcases Run.bind_inv run with ⟨answer, first, middle, rest, askRun, restRun, rfl⟩ |
    ⟨early, askRun, abandons⟩
  · have inTime := early_of_bounded_send askRun
    change Run (bounded pending bound (Transport.direct.send _ _)) _ _ _ _ at askRun
    rw [send_eq_question] at askRun
    rcases (bounded_question_inv askRun).of_result with ⟨_, same, askedFirst⟩
    cases same
    rw [calls_append, askedFirst, List.singleton_append] at asked
    cases before with
    | nil =>
        simp only [List.nil_append, List.cons.injEq, NodeCall.receipt, NodeCall.mk.injEq,
          Option.some.injEq, Except.ok.injEq, true_and] at asked
        rcases asked with ⟨rfl, rfl⟩
        have uncancelledRest := (List.forall_mem_append.mp uncancelled).2
        exact (aftermath_pollWithReceipt failed inTime uncancelledRest answered restRun).prepend
    | cons _ before =>
        have later : .receipt pending.txHash (.dict receipt) ∈ calls rest := by
          rw [(List.cons.inj asked).2]
          simp
        split at restRun
        · exact absurd (callsOnly_pollWithoutReceipt.method_of_mem_calls restRun _ later) isReceipt
        · exact absurd (callsOnly_pollWithReceipt.method_of_mem_calls restRun _ later) isReceipt
  · change Run (bounded pending bound (Transport.direct.send _ _)) _ _ _ _ at askRun
    rw [send_eq_question] at askRun
    have questioned := bounded_question_inv askRun
    have member : .receipt pending.txHash (.dict receipt) ∈ calls labels := by simp [asked]
    generalize calls labels = askedAll at questioned member
    cases questioned with
    | read found => cases abandons
    | refused unread _ => cases unread
    | failed noAnswer _ =>
        rcases NodeCall.mk.inj (List.mem_singleton.mp member) with ⟨_, _, same⟩
        exact absurd same.symm (noAnswer _)
    | late _ => cases member

theorem failedAt_eq (same : later.unmined = pending.unmined) :
    { later.minedAt block receipt with state := .reverted } =
      { pending.minedAt block receipt with state := .reverted } := by
  have sameLater := congrArg
    (fun unmined => { unmined.minedAt block receipt with state := .reverted }) same
  exact sameLater

theorem unmined_eq_of_polled {asked : List NodeCall} {firstHead first : Option Int}
    (polled : Polled pending firstHead asked (.ended (.ok (.unconfirmed later first)))) :
    later.unmined = pending.unmined := by
  cases polled with
  | absent onlyHeads => rfl
  | shallow succeeded number shallow => rfl
  | broken unconfirmed noResult => exact absurd rfl (noResult _)

theorem aftermath_watch {rounds : Nat} {firstHead : Option Int}
    {ending : Ending PendingTransaction} (failed : FailedAt receipt block)
    (uncancelled : ∀ label ∈ labels, label.Uncancelled) (answered : ending ≠ .stuck)
    (asked : calls labels = before ++ .receipt pending.txHash (.dict receipt) :: replay)
    (run : Run (pipeline.onNode.watch bound rounds pending firstHead) start labels ending stop) :
    Aftermath pipeline.decoder { pending.minedAt block receipt with state := .reverted } replay
      labels ending := by
  induction rounds generalizing pending firstHead start labels before with
  | zero =>
      cases run
      simp at asked
  | succ rounds ih =>
      rw [watch] at run
      rcases Run.bind_inv run with ⟨shown, polled, _, rest, pollRun, restRun, rfl⟩ |
        ⟨early, pollRun, abandons⟩
      · rcases List.forall_mem_append.mp uncancelled with ⟨uncancelledPoll, uncancelledRest⟩
        -- The receipt is not in this poll, which has a result, so it is in the rest.
        have inRest : ∃ middle,
            calls rest = middle ++ .receipt pending.txHash (.dict receipt) :: replay := by
          rw [calls_append] at asked
          rcases List.append_eq_append_iff.mp asked with ⟨middle, _, found⟩ | ⟨middle, inPoll, tail⟩
          · exact ⟨middle, found⟩
          · cases middle with
            | nil => exact ⟨[], tail.symm⟩
            | cons first middle =>
                cases (List.cons.inj tail).1
                have aftermath := aftermath_poll failed uncancelledPoll (by simp) inPoll pollRun
                exact absurd rfl (aftermath.noResult shown)
        rcases inRest with ⟨middle, inRest⟩
        cases shown with
        | confirmed confirmed =>
            rcases Run.done_inv restRun with ⟨rfl, _, _⟩
            simp at inRest
        | unconfirmed later first =>
            have same := unmined_eq_of_polled (poll_inv pollRun)
            rcases Run.bind_inv restRun with ⟨_, paused, _, after, pauseRun, nextRun, rfl⟩ |
              ⟨_, pauseRun, _⟩
            · rw [calls_append, calls_of_silent silent_pause pauseRun, List.nil_append,
                ← txHash_eq same] at inRest
              have uncancelledAfter := (List.forall_mem_append.mp uncancelledRest).2
              have aftermath := ih uncancelledAfter inRest nextRun
              rw [failedAt_eq same] at aftermath
              exact aftermath.prepend.prepend
            · rw [calls_of_silent silent_pause pauseRun] at inRest
              simp at inRest
      · have aftermath :=
          aftermath_poll failed uncancelled (abandons.ne_stuck answered) asked pollRun
        exact aftermath.abandon abandons

/-- A replay ends with a failure that a wait does not handle: one from the transport that is neither
a fault nor a timeout, one of the decoder of reasons, or one that comes from a transaction that does
not say who sent it. -/
inductive Derails (decoder : RevertDecoder) (replay : List NodeCall) : Failure → Prop where
  | raised {method : String} {params : List Value} {failure : Failure}
      (last : replay.getLast? = some ⟨method, params, some (.error failure)⟩)
      (noFault : ∀ fault, failure ≠ .fault fault)
      (noTimeout : ∀ text, failure ≠ .condition .timeout text) : Derails decoder replay failure
  | undecoded {method : String} {params : List Value} {fault : Fault} {failure : Failure}
      (last : replay.getLast? = some ⟨method, params, some (.error (.fault fault))⟩)
      (reverts : (fault.kind.isA .rpc && fault.isRevert) = true)
      (undecoded : decoder (fault.revertPayload?.getD []) = .error failure)
      (noTimeout : ∀ text, failure ≠ .condition .timeout text) : Derails decoder replay failure
  | malformed {params : List Value} {found : Value} {failure : Failure}
      (last : replay.getLast? = some ⟨"eth_getTransactionByHash", params, some (.ok found)⟩)
      (truthy : found.isTruthy = true) (unnamed : found.member "from" = .error failure) :
      Derails decoder replay failure

/-- The reason that the last answer of a replay reports. Only a revert has one. -/
def reasonOf (decoder : RevertDecoder) (replay : List NodeCall) : Option String :=
  match replay.getLast? with
  | some ⟨_, _, some (.error (.fault fault))⟩ =>
    if fault.kind.isA .rpc && fault.isRevert then
      (decoder (fault.revertPayload?.getD [])).toOption.join
    else none
  | _ => none

/-- A wait has reported the failure of a transaction in a block, and its reason. -/
structure ReportsFailure (pending : PendingTransaction) (receipt : Dict) (block : Int)
    (reason : Option String) (labels : List Label) (ending : Ending PendingTransaction) :
    Prop where
  raised : ending =
    .ended (.error (.fault (.transactionReverted pending.txHash reason (some receipt))))
  known : knownAfter pending labels =
    { pending.minedAt block receipt with state := .reverted, revertReason := reason }

theorem settled_eq_error_iff {outcome : Outcome (Option String)} {failure : Failure} :
    settled outcome = .error failure ↔
      outcome = .error failure ∧ ∀ text, failure ≠ .condition .timeout text := by
  unfold settled
  split
  · next text =>
      constructor
      · nofun
      · rintro ⟨⟨⟩, noTimeout⟩
        exact absurd rfl (noTimeout text)
  · next other =>
      refine ⟨fun same => ⟨same, ?_⟩, And.left⟩
      rintro text rfl
      exact other text same

theorem member_ne_timeout {value : Value} {key text : String} :
    value.member key ≠ .error (.condition .timeout text) := by
  intro failed
  unfold Value.member at failed
  split at failed
  · split at failed <;> cases failed
  · cases failed

theorem derails_of_settled {failure : Failure}
    (unsettled : settled (verdict decoder replay.getLast?) = .error failure) :
    Derails decoder replay failure := by
  rcases settled_eq_error_iff.mp unsettled with ⟨failed, noTimeout⟩
  rcases last : replay.getLast? with _ | ⟨method, params, _ | met | found⟩
  · rw [last] at failed
    cases failed
  · rw [verdict_of_unanswered last rfl] at failed
    cases failed
  · rw [last] at failed
    cases met with
    | fault fault =>
        change reasonOfFailure decoder (.fault fault) = _ at failed
        rw [reasonOfFailure] at failed
        split at failed
        · next reverts => exact .undecoded last reverts failed noTimeout
        · cases failed
    | _ =>
        cases failed
        exact .raised last (by rintro _ ⟨⟩) noTimeout
  · rw [last, verdict] at failed
    split at failed
    · next looked =>
        rcases looked with ⟨rfl, truthy⟩
        cases named : found.member "from" with
        | ok sender =>
            rw [named] at failed
            cases failed
        | error other =>
            rw [named] at failed
            cases failed
            exact .malformed last truthy named
    · cases failed

theorem settled_of_derails {failure : Failure} (derails : Derails decoder replay failure) :
    settled (verdict decoder replay.getLast?) = .error failure := by
  cases derails with
  | raised last noFault noTimeout =>
      refine settled_eq_error_iff.mpr ⟨?_, noTimeout⟩
      rw [last]
      cases failure with
      | fault fault => exact absurd rfl (noFault fault)
      | _ => rfl
  | undecoded last reverts undecoded noTimeout =>
      refine settled_eq_error_iff.mpr ⟨?_, noTimeout⟩
      rw [last]
      change reasonOfFailure decoder (.fault _) = _
      rw [reasonOfFailure, if_pos reverts, undecoded]
  | malformed last truthy unnamed =>
      refine settled_eq_error_iff.mpr ⟨?_, ?_⟩
      · rw [last, verdict, if_pos ⟨rfl, truthy⟩, unnamed]
        rfl
      · rintro text rfl
        exact member_ne_timeout unnamed

theorem settled_eq_ok {outcome : Outcome (Option String)} {reason : Option String}
    (found : settled outcome = .ok reason) : outcome.toOption.join = reason := by
  unfold settled at found
  split at found
  · cases found
    rfl
  · rw [found]
    rfl

theorem join_verdict :
    (verdict decoder replay.getLast?).toOption.join = reasonOf decoder replay := by
  unfold reasonOf
  rcases replay.getLast? with _ | ⟨method, params, _ | met | answer⟩
  · rfl
  · rfl
  · cases met with
    | fault fault =>
        change (reasonOfFailure decoder (.fault fault)).toOption.join = _
        rw [reasonOfFailure]
        dsimp only
        split <;> rfl
    | _ => rfl
  · rw [verdict]
    split
    · cases answer.member "from" <;> rfl
    · rfl

/-- A wait that finds the receipt of a failed transaction reports the failure, with the reason that
the last answer of the replay reports, unless the replay derails: then it ends with the failure that
the replay met, and leaves the transaction reverted. -/
theorem reports_failure_unless_derailed {rounds : Nat} {ending : Ending PendingTransaction}
    (failed : FailedAt receipt block) (closed : ∀ label ∈ labels, label.Closed)
    (asked : calls labels = before ++ .receipt pending.txHash (.dict receipt) :: replay)
    (run : Run (pipeline.onNode.wait pending rounds) start labels ending stop) :
    ((∀ failure, ¬Derails pipeline.decoder replay failure) →
        ReportsFailure pending receipt block (reasonOf pipeline.decoder replay) labels ending) ∧
      ∀ failure, Derails pipeline.decoder replay failure →
        ending = .ended (.error failure) ∧
          knownAfter pending labels =
            { pending.minedAt block receipt with state := .reverted } := by
  have answered : ending ≠ .stuck := by
    rintro rfl
    rcases run.stuck_inv with ⟨label, member, opened⟩
    exact opened (closed label member)
  rcases Run.within_map_inv run with ⟨own, waiting, rfl⟩
  have uncancelled : ∀ label ∈ own, label.Uncancelled :=
    fun label member => (Label.closed_within (closed _ (List.mem_map_of_mem member))).uncancelled
  rw [calls_map_within] at asked
  cases waiting with
  | clock watching =>
      have aftermath := aftermath_watch failed uncancelled answered asked watching
      cases aftermath with
      | @reported reason found last =>
          rw [← progress_map_within] at last
          refine ⟨fun _ => ?_, fun failure derails => ?_⟩
          · rw [← join_verdict, settled_eq_ok found]
            exact ⟨rfl, knownAfter_of_getLast? last⟩
          · rw [settled_of_derails derails] at found
            cases found
      | derailed unsettled last =>
          rw [← progress_map_within] at last
          refine ⟨fun safe => absurd (derails_of_settled unsettled) (safe _), ?_⟩
          intro failure derails
          rw [settled_of_derails derails] at unsettled
          cases unsettled
          exact ⟨rfl, knownAfter_of_getLast? last⟩

section Examples

theorem failedAt_failedIn (block : Int) : FailedAt (failedIn block) block :=
  ⟨rfl, rfl⟩

def replayable : PendingTransaction :=
  { patient with request := some {} }

/-- A pipeline that gives the same reason for every revert. -/
def explained : Pipeline :=
  { plain with decoder := fun _ => .ok (some "no funds") }

def refusal : Fault :=
  .rpc "execution reverted" .rpc "eth_call" none (.int 3)

/-- The replay is refused, and the refusal is explained. -/
theorem reports_failure_explained : ∃ labels ending stop,
    Run (explained.onNode.wait replayable 1) 0 labels ending stop ∧
      ReportsFailure replayable (failedIn 10) 10 (some "no funds") labels ending := by
  have run : Run (explained.onNode.wait replayable 1) 0 _ _ 0 :=
    .clock (.call (.ok (.dict (failedIn 10))) (.tell (.tell (.tell
      (.call (.error (.fault refusal)) (.tell (.tell .done)))))))
  obtain ⟨labels, ending, params, run, closed, asked⟩ : ∃ labels ending params,
      Run (explained.onNode.wait replayable 1) 0 labels ending 0 ∧
        (∀ label ∈ labels, label.Closed) ∧
          calls labels = [] ++ .receipt replayable.txHash (.dict (failedIn 10)) ::
            [⟨"eth_call", params, some (.error (.fault refusal))⟩] :=
    ⟨_, _, _, run, by simp [Label.Closed], rfl⟩
  have reports := (reports_failure_unless_derailed (failedAt_failedIn 10) closed asked run).1
  refine ⟨labels, ending, 0, run, reports fun failure derails => ?_⟩
  cases derails with
  | raised last noFault _ =>
      cases last
      exact noFault refusal rfl
  | undecoded last _ undecoded _ => cases undecoded
  | malformed last _ _ => simp at last

/-- A node that does not say who sent the transaction keeps the failure from being reported. -/
theorem not_reported_of_nameless : ¬∀ (pipeline : Pipeline) (pending : PendingTransaction)
    (rounds : Nat) (receipt : Dict) (block : Int) (before replay : List NodeCall) (start stop : Rat)
    (labels : List Label) (ending : Ending PendingTransaction), FailedAt receipt block →
      (∀ label ∈ labels, label.Closed) →
        calls labels = before ++ .receipt pending.txHash (.dict receipt) :: replay →
          Run (pipeline.onNode.wait pending rounds) start labels ending stop →
            ∃ reason, ReportsFailure pending receipt block reason labels ending := by
  intro reports
  have run : Run (plain.onNode.wait patient 1) 0 _ _ 0 :=
    .clock (.call (.ok (.dict (failedIn 10))) (.tell (.tell (.tell
      (.call (.ok (.dict [("hash", .text "0x01")])) .done)))))
  have reported := reports plain patient 1 (failedIn 10) 10 [] _ 0 0 _ _ (failedAt_failedIn 10)
    (by simp [Label.Closed]) rfl run
  rcases reported with ⟨reason, raised, _⟩
  cases raised

end Examples

end ContractClient.Pipeline
