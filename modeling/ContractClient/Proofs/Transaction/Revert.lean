import ContractClient.Proofs.Activity.Deadline
import ContractClient.Proofs.Transaction.Poll

/-!
# Reverts

A failed transaction is run again as a call, and the last answer of the node decides what becomes of
the wait (`Pipeline.verdict`): the reason for which the transaction is reported as reverted, or a
failure with which the wait ends instead of the report.
-/

namespace ContractClient

/-- A receipt says that a transaction has failed in a block. -/
def FailedAt (receipt : Dict) (block : Int) : Prop :=
  blockOf receipt = .ok block ∧ statusOf receipt = .ok 0

namespace Pipeline

variable {α : Type} {pipeline : Pipeline} {pending : PendingTransaction} {bound : WaitBound}
  {decoder : RevertDecoder} {start stop : Rat} {labels : List Label}

open Activity

/-- The reason for which a transaction failed, as far as it is found before the deadline. -/
def reasonInTime (pipeline : Pipeline) (pending : PendingTransaction) (block : Int)
    (bound : WaitBound) : Activity (Option String) :=
  ((pipeline.replayReason pending block).bounded bound.deadline).handle fun failure =>
    match failure with
    | .condition .timeout _ => do
      Activity.note .debug logger "Revert replay did not finish before the deadline"
      return none
    | failure => Activity.fail failure

/-- Reports a failed transaction with the reason that was found. -/
def reportRevert (pending : PendingTransaction) (block : Int) (reason : Option String) :
    Activity α := do
  Activity.publish { pending with revertReason := reason }
  Activity.note .warning logger "Transaction reverted"
    [("block_number", .int block), ("reason", .ofText? reason)]
  Activity.fault (.transactionReverted pending.txHash reason pending.receipt)

theorem revert_eq {block : Int} :
    (pipeline.revert pending block bound : Activity α) =
      Activity.publish { pending with state := .reverted } >>= fun _ =>
        pipeline.reasonInTime { pending with state := .reverted } block bound >>=
          reportRevert { pending with state := .reverted } block :=
  rfl

/-- What is made of the failure of a replay. -/
def reasonOfFailure (decoder : RevertDecoder) : Failure → Outcome (Option String)
  | .fault fault =>
    if fault.kind.isA .rpc && fault.isRevert then decoder (fault.revertPayload?.getD [])
    else .ok none
  | failure => .error failure

def reasonFor (decoder : RevertDecoder) : Outcome α → Outcome (Option String)
  | .ok _ => .ok none
  | .error failure => reasonOfFailure decoder failure

theorem reasonFor_error {failure : Failure} :
    reasonFor decoder (.error failure : Outcome α) = reasonOfFailure decoder failure :=
  rfl

/-- What is made of the last question of a replay. The answer to a look-up must name a sender. -/
def verdict (decoder : RevertDecoder) : Option NodeCall → Outcome (Option String)
  | some ⟨_, _, some (.error failure)⟩ => reasonOfFailure decoder failure
  | some ⟨method, _, some (.ok found)⟩ =>
    if method = "eth_getTransactionByHash" ∧ found.isTruthy then
      (found.member "from").map fun _ => none
    else .ok none
  | _ => .ok none

theorem reasonOfFailure_of_noQuantity {block : Int} {failure : Failure}
    (failed : Quantity.ofValue (.int block) = .error failure) :
    reasonOfFailure decoder failure = .ok none := by
  unfold Quantity.ofValue at failed
  dsimp only at failed
  split at failed
  · cases failed
    rfl
  · cases failed

/-- How a replay ends, given what was asked: as the last answer decides, or never, if the last
question stays without an answer. -/
inductive Replayed (judge : Outcome α → Outcome (Option String)) (decoder : RevertDecoder) :
    List NodeCall → Ending α → Prop where
  | ended {asked : List NodeCall} {outcome : Outcome α}
      (judged : judge outcome = verdict decoder asked.getLast?) :
      Replayed judge decoder asked (.ended outcome)
  | stuck {asked : List NodeCall} {call : NodeCall} (last : asked.getLast? = some call)
      (unanswered : call.answer = none) : Replayed judge decoder asked .stuck

theorem verdict_of_lookup {params : List Value} {found : Value} :
    verdict decoder [⟨"eth_getTransactionByHash", params, some (.ok found)⟩].getLast? =
      if found.isTruthy then (found.member "from").map fun _ => none else .ok none := by
  simp [verdict]

theorem reasonOfFailure_of_notFound :
    reasonOfFailure decoder (.fault <|
      .rpc "Transaction not found for replay" .rpc "eth_getTransactionByHash") = .ok none := by
  have noRevert : (Fault.rpc "Transaction not found for replay" .rpc
      "eth_getTransactionByHash").isRevert = false := by decide +kernel
  rw [reasonOfFailure, noRevert, Bool.and_false]
  rfl

theorem reasonOfFailure_of_member {value : Value} {key : String} {failure : Failure}
    (failed : value.member key = .error failure) :
    reasonOfFailure decoder failure = .error failure := by
  unfold Value.member at failed
  split at failed
  · split at failed
    · cases failed
    · cases failed
      rfl
  · cases failed
    rfl

theorem toRevert_bind_reason (fault : Fault) (decoder : RevertDecoder) :
    (fault.toRevert decoder >>= fun revert => .ok revert.reason?) =
      decoder (fault.revertPayload?.getD []) := by
  rw [Fault.toRevert]
  cases decoder (fault.revertPayload?.getD []) <;> rfl

theorem verdict_of_unanswered {asked : List NodeCall} {call : NodeCall}
    (last : asked.getLast? = some call) (unanswered : call.answer = none) :
    verdict decoder asked.getLast? = .ok none := by
  rcases call with ⟨method, params, answer⟩
  cases unanswered
  rw [last, verdict]
  all_goals simp

theorem Replayed.abandon {β : Type} {asked : List NodeCall} {early : Ending α} {ending : Ending β}
    (replayed : Replayed (reasonFor decoder) decoder asked early)
    (abandons : Abandons early ending) : Replayed (reasonFor decoder) decoder asked ending := by
  cases abandons with
  | failed =>
      cases replayed with
      | ended judged => exact .ended judged
  | stuck =>
      cases replayed with
      | stuck last unanswered => exact .stuck last unanswered
  | unfinished => cases replayed

/-- A question without a deadline is answered or not. -/
inductive Sent (method : String) (params : List Value) : List NodeCall → Ending Value → Prop where
  | answered {outcome : Outcome Value} :
      Sent method params [⟨method, params, some outcome⟩] (.ended outcome)
  | stuck : Sent method params [⟨method, params, none⟩] .stuck

theorem send_inv {method : String} {params : List Value} {ending : Ending Value}
    (uncancelled : ∀ label ∈ labels, label.Uncancelled)
    (run : Run (Transport.direct.send method params) start labels ending stop) :
    Sent method params (calls labels) ending := by
  rw [send_eq_question, question_eq] at run
  cases run with
  | stuck endless => exact .stuck
  | ask early closes next =>
      rcases Run.done_inv next with ⟨rfl, rfl, _⟩
      cases closes with
      | @answered outcome _ asked duration inTime =>
          cases outcome with
          | ok answer => exact .answered
          | error failure => exact .answered
      | expired due => cases due
      | cancelled asked inTime => exact absurd (uncancelled _ List.mem_cons_self) not_false

section Replay

variable (uncancelled : ∀ label ∈ labels, label.Uncancelled)

include uncancelled

theorem replayed_call {call : Dict} {block : Int} (prior : List NodeCall) {ending : Ending Unit}
    (undecided : verdict decoder prior.getLast? = .ok none)
    (run : Run (do
      let blockText ← (liftM (Quantity.ofValue (.int block)) : Activity String)
      discard (Transport.direct.send "eth_call" [.dict call, .text blockText]))
      start labels ending stop) :
    Replayed (reasonFor decoder) decoder (prior ++ calls labels) ending := by
  rcases Run.lift_bind_inv run with ⟨blockText, _, callRun⟩ | ⟨failure, failed, rfl, rfl⟩
  · rcases Run.bind_inv callRun with ⟨answer, before, _, _, sendRun, doneRun, rfl⟩ |
      ⟨early, sendRun, abandons⟩
    · rcases Run.done_inv doneRun with ⟨rfl, rfl, _⟩
      rw [List.append_nil] at uncancelled ⊢
      have sent := send_inv uncancelled sendRun
      generalize calls before = asked at sent
      cases sent with
      | answered => exact .ended (by simp [reasonFor, verdict])
    · have sent := send_inv uncancelled sendRun
      generalize calls labels = asked at sent
      cases sent with
      | answered =>
          cases abandons
          exact .ended (by simp [verdict, reasonFor])
      | stuck =>
          cases abandons
          exact .stuck List.getLast?_concat rfl
  · refine .ended ?_
    rw [calls_nil, List.append_nil, undecided]
    exact reasonOfFailure_of_noQuantity failed

theorem replayed_replayCall {ending : Ending Dict}
    (run : Run (pipeline.onNode.replayCall pending) start labels ending stop) :
    Replayed (reasonFor decoder) decoder (calls labels) ending := by
  unfold replayCall at run
  split at run
  · rcases Run.done_inv run with ⟨rfl, rfl, _⟩
    exact .ended rfl
  · rcases Run.bind_inv run with ⟨found, before, _, after, sendRun, readRun, rfl⟩ |
      ⟨early, sendRun, abandons⟩
    · have sent := send_inv (List.forall_mem_append.mp uncancelled).1 sendRun
      rw [calls_append]
      generalize calls before = asked at sent
      cases sent with
      | answered =>
          dsimp only at readRun
          split at readRun
          · next absent =>
              rcases Run.done_inv readRun with ⟨rfl, rfl, _⟩
              refine .ended ?_
              have notTruthy : found.isTruthy = false := by simpa using absent
              rw [calls_nil, List.append_nil, verdict_of_lookup, if_neg (by simp [notTruthy]),
                reasonFor_error]
              exact reasonOfFailure_of_notFound
          · next present =>
              have truthy : found.isTruthy = true := by simpa using present
              rcases Run.lift_bind_inv readRun with ⟨sender, named, readRun⟩ |
                ⟨failure, unnamed, rfl, rfl⟩
              · cases found with
                | dict entries =>
                    -- A dictionary can be looked into for the other members.
                    rcases Run.done_inv readRun with ⟨rfl, rfl, _⟩
                    refine .ended ?_
                    rw [calls_nil, List.append_nil, verdict_of_lookup, if_pos truthy, named]
                    rfl
                | _ => cases named
              · refine .ended ?_
                rw [calls_nil, List.append_nil, verdict_of_lookup, if_pos truthy, unnamed,
                  reasonFor_error]
                exact reasonOfFailure_of_member unnamed
    · have sent := send_inv uncancelled sendRun
      generalize calls labels = asked at sent
      cases sent with
      | answered =>
          cases abandons
          exact .ended rfl
      | stuck =>
          cases abandons
          exact .stuck rfl rfl

theorem replayed_replay {block : Int} {ending : Ending Unit}
    (run : Run (pipeline.onNode.replay pending block) start labels ending stop) :
    Replayed (reasonFor decoder) decoder (calls labels) ending := by
  rcases Run.bind_inv run with ⟨call, before, _, after, readRun, callRun, rfl⟩ |
    ⟨early, readRun, abandons⟩
  · rcases List.forall_mem_append.mp uncancelled with ⟨uncancelledRead, uncancelledCall⟩
    have read : Replayed (reasonFor decoder) decoder (calls before) (.ended (.ok call)) :=
      replayed_replayCall uncancelledRead readRun
    rw [calls_append]
    cases read with
    | ended judged =>
        exact replayed_call uncancelledCall _ judged.symm callRun
  · exact (replayed_replayCall uncancelled readRun).abandon abandons

theorem replayed_replayReason {block : Int} {ending : Ending (Option String)}
    (run : Run (pipeline.onNode.replayReason pending block) start labels ending stop) :
    Replayed id pipeline.decoder (calls labels) ending := by
  rcases Run.andThen_inv run with ⟨first, before, middle, after, replayRun, follows, rfl⟩
  have replayed : Replayed (reasonFor pipeline.decoder) pipeline.decoder (calls before) first :=
    replayed_replay (List.forall_mem_append.mp uncancelled).1 replayRun
  rw [calls_append]
  cases follows with
  | unfinished => cases replayed
  | stuck =>
      cases replayed with
      | stuck last unanswered => exact .stuck (by simpa using last) unanswered
  | @ended outcome _ _ _ _ next =>
      cases replayed with
      | ended judged =>
          -- Nothing more is asked, and the outcome is what was made of the replay.
          have concluded : calls after = [] ∧
              ending = .ended (reasonFor pipeline.decoder outcome) := by
            split at next
            · rcases Run.done_inv next with ⟨rfl, rfl, _⟩
              exact ⟨rfl, rfl⟩
            · next fault =>
                rw [reasonFor_error, reasonOfFailure]
                split at next
                · next reverts =>
                    rw [if_pos reverts, ← toRevert_bind_reason fault pipeline.decoder]
                    rcases Run.lift_bind_inv next with ⟨revert, made, doneRun⟩ |
                      ⟨failure, failed, rfl, rfl⟩
                    · rcases Run.done_inv doneRun with ⟨rfl, rfl, _⟩
                      change fault.toRevert pipeline.decoder = _ at made
                      rw [made]
                      exact ⟨rfl, rfl⟩
                    · change fault.toRevert pipeline.decoder = _ at failed
                      rw [failed]
                      exact ⟨rfl, rfl⟩
                · next others =>
                    rw [if_neg others]
                    rcases Run.emit_bind_inv next with ⟨_, doneRun, rfl⟩
                    rcases Run.done_inv doneRun with ⟨rfl, rfl, _⟩
                    exact ⟨rfl, rfl⟩
            · next failure noFault =>
                rcases Run.done_inv next with ⟨rfl, rfl, _⟩
                refine ⟨rfl, ?_⟩
                rw [reasonFor_error]
                cases failure with
                | fault fault => exact absurd rfl (noFault fault)
                | _ => rfl
          rcases concluded with ⟨noCalls, rfl⟩
          rw [noCalls, List.append_nil]
          exact .ended judged

end Replay

theorem yields_replayReason {block : Int} :
    (pipeline.onNode.replayReason pending block).Yields := by
  have yieldsCall : (pipeline.onNode.replayCall pending).Yields := by
    unfold replayCall
    split
    · trivial
    · refine (Yields.send _ _).bind fun found => ?_
      dsimp only
      split
      · trivial
      · refine (Yields.lift _).bind fun sender => ?_
        refine (Yields.lift _).bind fun input => ?_
        refine (Yields.lift _).bind fun recipient => ?_
        refine (Yields.lift _).bind fun value => ?_
        exact (Yields.lift _).bind fun gas => trivial
  have yields : (pipeline.onNode.replay pending block).Yields := by
    refine yieldsCall.bind fun call => (Yields.lift _).bind fun blockText => ?_
    exact (Yields.send _ _).bind fun answer => trivial
  refine yields.andThen (fun outcome => ?_) rfl
  split
  · trivial
  · split
    · exact (Yields.lift _).bind fun revert => trivial
    · trivial
  · trivial

/-- A timeout is no reason. -/
def settled : Outcome (Option String) → Outcome (Option String)
  | .error (.condition .timeout _) => .ok none
  | outcome => outcome

/-- The last answer before the deadline decides. -/
theorem reasonInTime_inv {block : Int} {ending : Ending (Option String)}
    (early : ∀ limit ∈ bound.deadline, start < limit)
    (uncancelled : ∀ label ∈ labels, label.Uncancelled)
    (run : Run (pipeline.onNode.reasonInTime pending block bound) start labels ending stop) :
    ending = .stuck ∨
      ending = .ended (settled (verdict pipeline.decoder (calls labels).getLast?)) := by
  rcases Run.andThen_inv run with ⟨first, before, middle, after, boundedRun, follows, rfl⟩
  have handled : ∀ outcome, first = .ended outcome →
      calls after = [] ∧ ending = .ended (settled outcome) := by
    rintro outcome rfl
    cases follows with
    | ended next =>
        cases outcome with
        | ok reason =>
            rcases Run.done_inv next with ⟨rfl, rfl, _⟩
            exact ⟨rfl, rfl⟩
        | error failure =>
            dsimp only at next
            split at next
            · rcases Run.emit_bind_inv next with ⟨_, doneRun, rfl⟩
              rcases Run.done_inv doneRun with ⟨rfl, rfl, _⟩
              exact ⟨rfl, rfl⟩
            · next other =>
                rcases Run.done_inv next with ⟨rfl, rfl, _⟩
                refine ⟨rfl, ?_⟩
                rw [settled]
                rintro text same
                exact other text (Except.error.inj same)
  have uncancelledBefore := (List.forall_mem_append.mp uncancelled).1
  rcases Run.bounded_inv yields_replayReason early boundedRun with replayRun | ⟨limit, _, expires⟩
  · have replayed := replayed_replayReason uncancelledBefore replayRun
    cases replayed with
    | stuck last unanswered =>
        cases follows
        exact Or.inl rfl
    | ended judged =>
        rcases handled _ rfl with ⟨noCalls, rfl⟩
        rw [calls_append, noCalls, List.append_nil, ← judged]
        exact Or.inr rfl
  · cases expires with
    | @unanswered own query moment waits =>
        have uncancelledOwn : ∀ label ∈ own ++ [.unanswered query moment], label.Uncancelled :=
          List.forall_mem_append.mpr
            ⟨(List.forall_mem_append.mp uncancelledBefore).1, List.forall_mem_singleton.mpr trivial⟩
        have replayed := replayed_replayReason uncancelledOwn waits
        rw [← calls_expired limit] at replayed
        rcases handled _ rfl with ⟨noCalls, rfl⟩
        rw [calls_append, noCalls, List.append_nil]
        cases replayed with
        | stuck last unanswered =>
            rw [verdict_of_unanswered last unanswered]
            exact Or.inr rfl

end Pipeline

end ContractClient
