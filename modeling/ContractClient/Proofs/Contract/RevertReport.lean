import ContractClient.Contract.Instance
import ContractClient.Proofs.Contract.Agreement
import ContractClient.Proofs.Contract.ErrorObject
import ContractClient.Proofs.Contract.Result
import ContractClient.Proofs.Transaction.Aftermath

/-!
# Reports of reverts

The call of a function can be made at once, in a batch, or as the draft of a transaction that is not
sent (`CallPath`), and a failed transaction is run again as a call. In all of these ways a node may
answer that the call reverts. `ContractInstance.reports_alike` says that they report the same then,
the explanation that the interface gives for the payload, and that none of them takes another error
for a revert. Payloads over which the interface stumbles are the exception: none of them reports
these as a revert (`ContractInstance.not_reports_stumbling`).
-/

namespace ContractClient

open Activity

/-- Nothing refuses a call in which nothing but the caller is set. -/
theorem exists_callParams {data : Bytes} {address : Address} {sender : Option Address}
    (located : address.octets.length = Address.length)
    (named : ∀ account ∈ sender, account.octets.length = Address.length) :
    ∃ params, callParams data address.toValue
      { sender := Value.ofOption (TransactionRequest.addressText sender) } = .ok params := by
  rw [callParams, Address.ofValue_toValue "to" located]
  cases sender with
  | none => exact ⟨_, rfl⟩
  | some account =>
      have known : Address.ofValue (.text account.text) "from_address" = .ok account :=
        Address.ofValue_toValue "from_address" (named account rfl)
      simp only [TransactionRequest.addressText, Option.map_some, Value.ofOption, Address.toValue,
        known]
      exact ⟨_, rfl⟩

namespace MethodCall

variable {draft : MethodCall} {block : Value} {params : List Value}

/-- The parameters with which a draft is run as a call. -/
def paramsAt (draft : MethodCall) (block : Value) : Outcome (List Value) :=
  callParams draft.data draft.contract.address.toValue
    { sender := Value.ofOption (TransactionRequest.addressText draft.senderOf),
      value := draft.value, block }

theorem dryRun_eq {function : ContractFunction} (direct : draft.contract.transport = .direct)
    (calls : draft.function = some function) (made : draft.paramsAt block = .ok params) :
    draft.dryRun block = (Transport.direct.send "eth_call" params).andThen fun result =>
      Activity.ofOutcome (Call.conclude function draft.contract.abi.decodeError result) := by
  have located : callParams draft.data draft.contract.address.toValue
      { sender := Value.ofOption (TransactionRequest.addressText draft.senderOf),
        value := draft.value, block } = .ok params := made
  rw [dryRun, located, direct, calls]
  refine congrArg (Transport.direct.send "eth_call" params).andThen (funext fun result => ?_)
  cases result with
  | ok value => rfl
  | error failure =>
      dsimp only [Call.conclude]
      cases Call.failureOf draft.contract.abi.decodeError failure <;> rfl

end MethodCall

/-- A way to call a function of a contract: at once, with what waits in a queue, or as a draft that
is run at a block. -/
inductive CallPath where
  | atOnce (options : CallOptions)
  | batched (queue : CallQueue) (options : CallOptions)
  | drafted (draft : MethodCall) (block : Value)

namespace CallPath

/-- Calls a function in a way, and looks at what the call has come to; none if it still waits. -/
def call (contract : ContractInstance) (function : ContractFunction) (arguments : List Value) :
    CallPath → Activity (Option (Outcome Value))
  | atOnce options =>
    (Call.execute contract.transport contract.abi.decodeError function arguments
      contract.address.toValue options).andThen fun outcome => pure (some outcome)
  | batched queue options =>
    queue.callInBatch contract.transport contract.abi.decodeError function arguments
      contract.address.toValue options
  | drafted draft block => (draft.dryRun block).andThen fun outcome => pure (some outcome)

/-- A call that is made in a way asks the node with parameters: nothing refuses it before, and what
waits in its queue is answered so that it can be delivered. -/
inductive Asks (node : Node) (contract : ContractInstance) (function : ContractFunction)
    (arguments : List Value) : CallPath → List Value → Prop where
  | atOnce {options : CallOptions} {params : List Value}
      (made : Call.checkedParams function arguments contract.address.toValue options = .ok params) :
      Asks node contract function arguments (.atOnce options) params
  | batched {queue : CallQueue} {options : CallOptions} {params : List Value} (sound : queue.Sound)
      (made : Call.paramsOf function arguments contract.address.toValue options = .ok params)
      (reportable : ∀ question ∈ queue.questions, (node question).IsReportable) :
      Asks node contract function arguments (.batched queue options) params
  | drafted {draft : MethodCall} {block : Value} {params : List Value}
      (binds : draft.contract = contract) (calls : draft.function = some function)
      (encoded : function.encodeCall arguments = .ok draft.data)
      (made : draft.paramsAt block = .ok params) :
      Asks node contract function arguments (.drafted draft block) params

variable {node : Node} {contract : ContractInstance} {function : ContractFunction}
  {arguments params : List Value} {path : CallPath} {start stop : Rat} {labels : List Label}
  {ending : Ending (Option (Outcome Value))}

theorem some_inv {activity : Activity Value} {outcome : Outcome Value}
    (ends : ∀ {before early middle}, Run activity start before early middle →
      (∀ label ∈ before, label.AnsweredBy node) → early = .ended outcome)
    (run : Run (activity.andThen fun outcome => pure (some outcome)) start labels ending stop)
    (answered : ∀ label ∈ labels, label.AnsweredBy node) :
    ending = .ended (.ok (some outcome)) := by
  rcases Run.andThen_inv run with ⟨early, before, middle, after, first, follows, rfl⟩
  rw [List.forall_mem_append] at answered
  cases ends first answered.1
  cases follows with
  | ended last =>
      rcases Run.done_inv last with ⟨_, rfl, _⟩
      rfl

/-- In whatever way a call is made, it concludes from the answer of the node. -/
theorem call_inv (direct : contract.transport = .direct)
    (asks : path.Asks node contract function arguments params)
    (reportable : (node ("eth_call", params)).IsReportable)
    (run : Run (path.call contract function arguments) start labels ending stop)
    (answered : ∀ label ∈ labels, label.AnsweredBy node) :
    ending = .ended (.ok (some (Call.conclude function contract.abi.decodeError
      ((node ("eth_call", params)).outcome ("eth_call", params))))) := by
  cases asks with
  | atOnce made =>
      rw [call, direct] at run
      refine some_inv (fun {before _ _} first answered => ?_) run answered
      have executed := Call.execute_inv first answered
      rw [made] at executed
      generalize transmitted before = asked at executed
      cases executed
      rfl
  | @batched queue options params sound made others =>
      rw [call, direct] at run
      rcases CallQueue.callInBatch_inv sound run answered with ⟨own, rfl, batched⟩
      rw [made] at batched
      generalize transmitted labels = asked at batched
      cases batched with
      | concluded _ => rfl
      | waits asked unreportable =>
          rcases List.mem_append.mp asked with waiting | own
          · exact absurd (others _ waiting) unreportable
          · rw [List.mem_singleton.mp own] at unreportable
            exact absurd reportable unreportable
  | @drafted draft block params binds calls encoded made =>
      subst binds
      rw [call, MethodCall.dryRun_eq direct calls made] at run
      refine some_inv (fun first answered => ?_) run answered
      rcases Run.andThen_inv first with ⟨reply, before, middle, after, sending, follows, rfl⟩
      rw [List.forall_mem_append] at answered
      rcases send_answered_inv sending answered.1 with ⟨rfl, _⟩
      cases follows with
      | ended last =>
          rcases Run.done_inv last with ⟨_, rfl, _⟩
          rfl

/-- Whatever a node answers, a call that asks it can be made. -/
theorem exists_run (direct : contract.transport = .direct)
    (asks : path.Asks node contract function arguments params) (start : Rat) :
    ∃ labels ending, Run (path.call contract function arguments) start labels ending start ∧
      ∀ label ∈ labels, label.AnsweredBy node := by
  cases asks with
  | @atOnce options params made =>
      rw [call, direct]
      rcases Call.execute_run node contract.abi.decodeError function arguments
        contract.address.toValue options start with ⟨labels, early, run, answered⟩
      have executed := Call.execute_inv run answered
      rw [made] at executed
      generalize transmitted labels = asked at executed
      cases executed
      exact ⟨labels ++ [], _, run.andThen .done, by rwa [List.append_nil]⟩
  | batched sound made others =>
      rw [call, direct]
      exact CallQueue.callInBatch_run node _ _ _ _ _ _ start
  | @drafted draft block params binds calls encoded made =>
      subst binds
      rw [call, MethodCall.dryRun_eq direct calls made]
      refine ⟨_, _, .andThen (.ask (by simp) (@Closes.atOnce start (.call _ _)
        ((node ("eth_call", params)).outcome ("eth_call", params)) rfl) .done) .done, ?_⟩
      exact List.forall_mem_singleton.mpr .call

/-- A way in which nothing is set: at once, in a batch without others, or as a draft at the newest
block. -/
inductive IsPlain (contract : ContractInstance) (function : ContractFunction) (data : Bytes) :
    CallPath → Prop where
  | atOnce : IsPlain contract function data (.atOnce {})
  | batched : IsPlain contract function data (.batched {} {})
  | drafted : IsPlain contract function data
      (.drafted { contract, function := some function, data } (.text "latest"))

/-- Nothing refuses a call in which nothing is set, if the arguments encode and the addresses of the
contract and of its signer are addresses. -/
theorem exists_asks_of_isPlain {data : Bytes}
    (encoded : function.encodeCall arguments = .ok data)
    (located : contract.address.octets.length = Address.length)
    (signed : ∀ signer ∈ contract.signer, signer.address.octets.length = Address.length)
    (plain : path.IsPlain contract function data) (node : Node) :
    ∃ params, path.Asks node contract function arguments params := by
  obtain ⟨params, made⟩ : ∃ params,
      Call.paramsOf function arguments contract.address.toValue {} = .ok params := by
    rw [Call.paramsOf, encoded]
    exact @exists_callParams data _ none located nofun
  cases plain with
  | atOnce => exact ⟨params, .atOnce made⟩
  | batched => exact ⟨params, .batched CallQueue.sound_new made (List.forall_mem_nil _)⟩
  | drafted =>
      obtain ⟨params, drafted⟩ : ∃ params, MethodCall.paramsAt
          { contract, function := some function, data } (.text "latest") = .ok params := by
        refine exists_callParams located ?_
        intro account member
        rcases Option.map_eq_some_iff.mp member with ⟨signer, signs, rfl⟩
        exact signed signer signs
      exact ⟨params, .drafted rfl rfl encoded drafted⟩

end CallPath

namespace Pipeline

/-- A wait finds the receipt of a failed transaction and runs the transaction again, and the node
answers this call with an error object. -/
structure ReplayFails (pipeline : Pipeline) (error : ErrorObject) (pending : PendingTransaction)
    (receipt : Dict) (block : Int) (labels : List Label) (ending : Ending PendingTransaction) :
    Prop where
  failed : FailedAt receipt block
  closed : ∀ label ∈ labels, label.Closed
  replayed : ∃ before replay params,
    calls labels = before ++ .receipt pending.txHash (.dict receipt) :: replay ∧
      replay.getLast? =
        some ⟨"eth_call", params, some ((NodeAnswer.error error).outcome ("eth_call", params))⟩
  waits : ∃ rounds start stop, Run (pipeline.wait pending rounds) start labels ending stop

variable {pipeline : Pipeline} {decoder : RevertDecoder} {error : ErrorObject}
  {pending : PendingTransaction} {receipt : Dict} {block : Int} {labels : List Label}
  {ending : Ending PendingTransaction} {payload : Bytes} {text : String} {params : List Value}

theorem reasonOfFailure_of_reportsRevert (shown : error.message.displayed = .ok text)
    (reverts : error.ReportsRevert) (carries : Carries payload error.data) :
    reasonOfFailure decoder (.fault (error.fault text "eth_call" params)) = decoder payload := by
  have isRevert : (error.fault text "eth_call" params).isRevert = true :=
    (ErrorObject.isRevert_fault_iff shown).mpr reverts
  rw [reasonOfFailure, ErrorObject.isA_fault, isRevert, ErrorObject.revertPayload?_fault carries]
  rfl

theorem reasonOfFailure_of_not (shown : error.message.displayed = .ok text)
    (noRevert : ¬error.ReportsRevert) :
    reasonOfFailure decoder (.fault (error.fault text "eth_call" params)) = .ok none := by
  have notRevert : (error.fault text "eth_call" params).isRevert = false := by
    rwa [← Bool.not_eq_true, ErrorObject.isRevert_fault_iff shown]
  rw [reasonOfFailure, notRevert, Bool.and_false]
  rfl

/-- What is made of the error object decides what becomes of the wait. -/
theorem ReplayFails.settles (direct : pipeline.transport = .direct)
    (fails : pipeline.ReplayFails error pending receipt block labels ending)
    (shown : error.message.displayed = .ok text) :
    ∃ params,
      (∀ reason,
        reasonOfFailure pipeline.decoder (.fault (error.fault text "eth_call" params)) =
            .ok reason →
          ReportsFailure pending receipt block reason labels ending) ∧
      ∀ failure, (∀ text, failure ≠ .condition .timeout text) →
        reasonOfFailure pipeline.decoder (.fault (error.fault text "eth_call" params)) =
            .error failure →
          ending = .ended (.error failure) ∧
            knownAfter pending labels =
              { pending.minedAt block receipt with state := .reverted } := by
  rcases fails.replayed with ⟨before, replay, params, asked, last⟩
  rcases fails.waits with ⟨rounds, start, stop, run⟩
  have same : pipeline.onNode = pipeline := by rw [onNode, ← direct]
  rw [← same] at run
  rcases reports_failure_unless_derailed fails.failed fails.closed asked run with ⟨reports, passes⟩
  have judged : verdict pipeline.decoder replay.getLast? =
      reasonOfFailure pipeline.decoder (.fault (error.fault text "eth_call" params)) := by
    rw [last, ErrorObject.outcome_eq shown]
    rfl
  refine ⟨params, fun reason explained => ?_, fun failure noTimeout unexplained => ?_⟩
  · have found : settled (verdict pipeline.decoder replay.getLast?) = .ok reason := by
      rw [judged, explained]
      rfl
    have reasonFound : reasonOf pipeline.decoder replay = reason :=
      join_verdict.symm.trans (settled_eq_ok found)
    rw [← reasonFound]
    refine reports fun failure derails => ?_
    cases (settled_of_derails derails).symm.trans found
  · exact passes failure
      (derails_of_settled (settled_eq_error_iff.mpr ⟨judged.trans unexplained, noTimeout⟩))

end Pipeline

namespace ContractInstance

variable {contract : ContractInstance} {pipeline : Pipeline} {function : ContractFunction}
  {arguments : List Value} {error : ErrorObject}

/-- A call of a function that the node answers with an error object comes to an outcome of a kind,
in whatever way it is made. -/
def EveryCall (contract : ContractInstance) (function : ContractFunction) (arguments : List Value)
    (error : ErrorObject) (kind : Outcome Value → Prop) : Prop :=
  ∀ (node : Node) (path : CallPath) (params : List Value) (start stop : Rat) (labels : List Label)
      (ending : Ending (Option (Outcome Value))),
    path.Asks node contract function arguments params → node ("eth_call", params) = .error error →
      Run (path.call contract function arguments) start labels ending stop →
        (∀ label ∈ labels, label.AnsweredBy node) →
          ∃ outcome, ending = .ended (.ok (some outcome)) ∧ kind outcome

theorem everyCall {kind : Outcome Value → Prop} (direct : contract.transport = .direct)
    (reportable : (Value.dict error).IsReportable)
    (concludes : ∀ params, kind (Call.conclude function contract.abi.decodeError
      ((NodeAnswer.error error).outcome ("eth_call", params)))) :
    contract.EveryCall function arguments error kind := by
  intro node path params start stop labels ending asks answer run answered
  have answerReportable : (node ("eth_call", params)).IsReportable := by
    rw [answer]
    exact reportable
  refine ⟨_, CallPath.call_inv direct asks answerReportable run answered, ?_⟩
  rw [answer]
  exact concludes params

theorem pipeline_inv (signs : contract.pipeline = .ok pipeline) :
    pipeline.transport = contract.transport ∧ pipeline.decoder = contract.abi.decodeError := by
  rw [ContractInstance.pipeline] at signs
  split at signs
  · cases signs
    exact ⟨rfl, rfl⟩
  · cases signs

section Reports

variable (direct : contract.transport = .direct) (signs : contract.pipeline = .ok pipeline)
  (reportable : (Value.dict error).IsReportable)

include direct signs reportable

theorem reports_explained {payload : Bytes} {reason : Option String} (reverts : error.ReportsRevert)
    (carries : Carries payload error.data)
    (explained : contract.abi.decodeError payload = .ok reason) :
    contract.EveryCall function arguments error
        (· = Outcome.fault (.callReverted reason (some payload))) ∧
      ∀ pending receipt block labels ending,
        pipeline.ReplayFails error pending receipt block labels ending →
          Pipeline.ReportsFailure pending receipt block reason labels ending := by
  rcases pipeline_inv signs with ⟨transport, decoder⟩
  constructor
  · refine everyCall direct reportable fun params => ?_
    rw [Call.conclude_of_reportsRevert reportable reverts carries, explained]
    rfl
  · intro pending receipt block labels ending fails
    rcases ErrorObject.exists_displayed reportable with ⟨text, shown⟩
    rcases fails.settles (transport.trans direct) shown with ⟨params, reports, _⟩
    refine reports reason ?_
    rw [Pipeline.reasonOfFailure_of_reportsRevert shown reverts carries, decoder, explained]

theorem fails_stumbling {payload : Bytes} (reverts : error.ReportsRevert)
    (carries : Carries payload error.data) (stumbles : contract.abi.Stumbles payload) :
    contract.EveryCall function arguments error (· = Outcome.condition .badValue) ∧
      ∀ pending receipt block labels ending,
        pipeline.ReplayFails error pending receipt block labels ending →
          ending = .ended (Outcome.condition .badValue) := by
  rcases pipeline_inv signs with ⟨transport, decoder⟩
  have unexplained := ContractAbi.decodeError_of_stumbles stumbles
  constructor
  · refine everyCall direct reportable fun params => ?_
    rw [Call.conclude_of_reportsRevert reportable reverts carries, unexplained]
    rfl
  · intro pending receipt block labels ending fails
    rcases ErrorObject.exists_displayed reportable with ⟨text, shown⟩
    rcases fails.settles (transport.trans direct) shown with ⟨params, _, passes⟩
    refine (passes (.condition .badValue "") nofun ?_).1
    rw [Pipeline.reasonOfFailure_of_reportsRevert shown reverts carries, decoder, unexplained]
    rfl

theorem reports_otherError (noRevert : ¬error.ReportsRevert) :
    contract.EveryCall function arguments error
        (fun outcome => ∃ fault, fault.kind = .rpc ∧ fault.payload = .rpc error.code error.data ∧
          outcome = Outcome.fault fault) ∧
      ∀ pending receipt block labels ending,
        pipeline.ReplayFails error pending receipt block labels ending →
          Pipeline.ReportsFailure pending receipt block none labels ending := by
  rcases pipeline_inv signs with ⟨transport, _⟩
  constructor
  · refine everyCall direct reportable fun params => ?_
    exact Call.conclude_of_not reportable noRevert
  · intro pending receipt block labels ending fails
    rcases ErrorObject.exists_displayed reportable with ⟨text, shown⟩
    rcases fails.settles (transport.trans direct) shown with ⟨params, reports, _⟩
    exact reports none (Pipeline.reasonOfFailure_of_not shown noRevert)

/-- Every way to call a function, and every replay of a failed transaction, reports the same revert
with the same reason, unless the interface stumbles over the payload: then all of them fail in the
same way, and no revert is reported. An error that is no revert stays what it is. The ways in which
nothing is set can be gone whenever the arguments encode. -/
theorem reports_alike :
    (∀ payload, error.ReportsRevert → Carries payload error.data →
      (¬contract.abi.Stumbles payload ∧ ∃ reason, contract.abi.decodeError payload = .ok reason ∧
        contract.EveryCall function arguments error
          (· = Outcome.fault (.callReverted reason (some payload))) ∧
        ∀ pending receipt block labels ending,
          pipeline.ReplayFails error pending receipt block labels ending →
            Pipeline.ReportsFailure pending receipt block reason labels ending) ∨
      (contract.abi.Stumbles payload ∧
        contract.EveryCall function arguments error (· = Outcome.condition .badValue) ∧
        ∀ pending receipt block labels ending,
          pipeline.ReplayFails error pending receipt block labels ending →
            ending = .ended (Outcome.condition .badValue))) ∧
    (¬error.ReportsRevert →
      contract.EveryCall function arguments error
        (fun outcome => ∃ fault, fault.kind = .rpc ∧ fault.payload = .rpc error.code error.data ∧
          outcome = Outcome.fault fault) ∧
      ∀ pending receipt block labels ending,
        pipeline.ReplayFails error pending receipt block labels ending →
          Pipeline.ReportsFailure pending receipt block none labels ending) ∧
    ∀ data, function.encodeCall arguments = .ok data →
      contract.address.octets.length = Address.length →
      (∀ signer ∈ contract.signer, signer.address.octets.length = Address.length) →
      ∀ (path : CallPath) (node : Node), path.IsPlain contract function data →
        ∃ params labels ending, path.Asks node contract function arguments params ∧
          Run (path.call contract function arguments) 0 labels ending 0 ∧
          ∀ label ∈ labels, label.AnsweredBy node := by
  refine ⟨fun payload reverts carries => ?_, reports_otherError direct signs reportable, ?_⟩
  · by_cases stumbles : contract.abi.Stumbles payload
    · exact Or.inr ⟨stumbles, fails_stumbling direct signs reportable reverts carries stumbles⟩
    · rcases ContractAbi.decodeError_eq_ok_iff.mpr stumbles with ⟨reason, explained⟩
      exact Or.inl ⟨stumbles, reason, explained,
        reports_explained direct signs reportable reverts carries explained⟩
  · intro data encoded located signed path node plain
    rcases CallPath.exists_asks_of_isPlain encoded located signed plain node with ⟨params, asks⟩
    rcases CallPath.exists_run direct asks 0 with ⟨labels, ending, run, answered⟩
    exact ⟨params, labels, ending, asks, run, answered⟩

end Reports

section Examples

/-- A contract at some address, with a signer and the given interface. -/
def deployed (abi : ContractAbi) : ContractInstance where
  abi
  address := ⟨List.replicate 20 0xaa⟩
  transport := .direct
  signer := some (.nodeManaged ⟨List.replicate 20 0xbb⟩)

/-- The payload of an arithmetic overflow. -/
def overflow : Bytes :=
  panicSelector ++ Bytes.word 0x11

/-- A node that hides the payload of the revert, in capitals, in an object. -/
def overflowError : ErrorObject :=
  [("code", .int (-32000)), ("message", .text "VM Exception: Reverted"),
    ("data", .dict [("result", .text (String.ofList
      ('0' :: 'x' :: (Hex.encode overflow).map Char.toUpper)))])]

theorem reportsRevert_overflowError : overflowError.ReportsRevert :=
  Or.inr ⟨_, rfl, "Revert".toList, ⟨"VM Exception: ".toList, "ed".toList, by decide⟩, by decide⟩

theorem carries_overflowError : Carries overflow overflowError.data := by
  refine .result rfl rfl ⟨_, String.toList_ofList, ?_⟩
  decide +kernel

theorem explained_overflow :
    ContractAbi.decodeError {} overflow =
      .ok (some "panic: 0x11 (arithmetic overflow or underflow)") :=
  (RevertDecoder.Provided.ofInterface {}).explains (decodeRevertReason_panic (by decide))

/-- The pipeline of a contract without an interface. -/
def deployedPipeline : Pipeline where
  transport := .direct
  signer := .nodeManaged ⟨List.replicate 20 0xbb⟩
  decoder := ContractAbi.decodeError {}

def replayParams : List Value :=
  [.dict (Pipeline.callOfRequest {}), .text "0xa"]

theorem replayFails_overflow : ∃ labels ending,
    deployedPipeline.ReplayFails overflowError Pipeline.replayable (Pipeline.failedIn 10) 10 labels
      ending := by
  have run : Run (deployedPipeline.wait Pipeline.replayable 1) 0 _ _ 0 :=
    .clock (.call (.ok (.dict (Pipeline.failedIn 10))) (.tell (.tell (.tell
      (.call ((NodeAnswer.error overflowError).outcome ("eth_call", replayParams))
        (.tell (.tell .done)))))))
  exact ⟨_, _, Pipeline.failedAt_failedIn 10, by simp [Label.Closed],
    ⟨[], _, replayParams, rfl, rfl⟩, 1, 0, 0, run⟩

theorem reports_alike_overflow :
    let reason := some "panic: 0x11 (arithmetic overflow or underflow)"
    (deployed {}).transport = .direct ∧ (deployed {}).pipeline = .ok deployedPipeline ∧
      (Value.dict overflowError).IsReportable ∧
        (∃ data, CallQueue.ping.encodeCall [] = .ok data ∧
          ∀ path : CallPath, path.IsPlain (deployed {}) CallQueue.ping data →
            ∃ labels, Run (path.call (deployed {}) CallQueue.ping []) 0 labels
              (.ended (.ok (some (Outcome.fault (.callReverted reason (some overflow)))))) 0) ∧
        ∃ labels ending, Pipeline.ReportsFailure Pipeline.replayable (Pipeline.failedIn 10) 10
          reason labels ending := by
  intro reason
  have direct : (deployed {}).transport = .direct := rfl
  have signs : (deployed {}).pipeline = .ok deployedPipeline := rfl
  have reportable : (Value.dict overflowError).IsReportable := ErrorObject.isReportable_of_text rfl
  rcases @reports_alike _ _ CallQueue.ping [] _ direct signs reportable with ⟨reverts, _, plainly⟩
  rcases reverts overflow reportsRevert_overflowError carries_overflowError with
    ⟨_, found, explained, everyCall, everyReplay⟩ | ⟨stumbles, _⟩
  · cases explained_overflow.symm.trans explained
    refine ⟨direct, signs, reportable, ⟨_, rfl, fun path plain => ?_⟩, ?_⟩
    · let node : Node := fun _ => .error overflowError
      have signed : ∀ signer ∈ (deployed {}).signer,
          signer.address.octets.length = Address.length := by
        simp [deployed, Signer.address, Address.length]
      rcases plainly _ rfl rfl signed path node plain with
        ⟨params, labels, ending, asks, run, answered⟩
      rcases everyCall node path params 0 0 labels ending asks rfl run answered with ⟨_, rfl, rfl⟩
      exact ⟨labels, run⟩
    · rcases replayFails_overflow with ⟨labels, ending, fails⟩
      exact ⟨labels, ending, everyReplay _ _ _ _ _ fails⟩
  · cases explained_overflow.symm.trans (ContractAbi.decodeError_of_stumbles stumbles)

/-- An error with a parameter that no arguments are decoded for. -/
def hollow : ContractError where
  name := "E"
  inputs := [{ type := .tuple [] }]

/-- An interface that declares the error. -/
def hollowAbi : ContractAbi where
  errorsBySelector := [(hollow.selector, hollow)]

def hollowError : ErrorObject :=
  [("code", .int 3), ("data", .text (Data.ofBytes hollow.selector))]

theorem stumbles_hollow : hollowAbi.Stumbles hollow.selector := by
  have whole : hollow.selector.take selectorLength = hollow.selector := by
    rw [ContractError.selector, selectorOf, List.take_take, Nat.min_self]
  have noBody : hollow.selector.drop selectorLength = [] := by
    rw [← whole, List.drop_take, Nat.sub_self, List.take_zero]
  refine ⟨?_, hollow, ?_, whole.symm, .tuple [], List.mem_singleton.mpr rfl, rfl⟩
  · have noBodyAfterFour : hollow.selector.drop 4 = [] := noBody
    simp only [decodeRevertReason, noBodyAfterFour]
    split
    · rfl
    · split <;> rfl
  · rw [whole]
    simp [ContractAbi.errorBySelector?, hollowAbi]

/-- An error that an interface declares may keep a revert from being reported. -/
theorem not_reports_stumbling :
    ¬∀ (contract : ContractInstance) (function : ContractFunction) (arguments : List Value)
        (error : ErrorObject) (payload : Bytes), contract.transport = .direct →
      contract.signer.isSome → (∃ data, function.encodeCall arguments = .ok data) →
        (Value.dict error).IsReportable → error.ReportsRevert → Carries payload error.data →
          ∃ reason, contract.EveryCall function arguments error
            (· = Outcome.fault (.callReverted reason (some payload))) := by
  intro reports
  have reportable : (Value.dict hollowError).IsReportable := ⟨_, rfl, rfl⟩
  have reverts : hollowError.ReportsRevert := Or.inl rfl
  have carries : Carries hollow.selector hollowError.data := .plain (Data.writes_ofBytes _)
  rcases reports (deployed hollowAbi) CallQueue.ping [] hollowError hollow.selector rfl rfl
    ⟨_, rfl⟩ reportable reverts carries with ⟨reason, reported⟩
  have signed : ∀ signer ∈ (deployed hollowAbi).signer,
      signer.address.octets.length = Address.length := by
    simp [deployed, Signer.address, Address.length]
  have signs : (deployed hollowAbi).pipeline = .ok _ := rfl
  have fails : (deployed hollowAbi).EveryCall CallQueue.ping [] hollowError
      (· = Outcome.condition .badValue) :=
    (fails_stumbling rfl signs reportable reverts carries stumbles_hollow).1
  let node : Node := fun _ => .error hollowError
  obtain ⟨params, asks⟩ : ∃ params,
      (CallPath.atOnce {}).Asks node (deployed hollowAbi) CallQueue.ping [] params :=
    CallPath.exists_asks_of_isPlain rfl rfl signed .atOnce node
  rcases CallPath.exists_run rfl asks 0 with ⟨labels, ending, run, answered⟩
  rcases reported node _ params 0 0 labels ending asks rfl run answered with ⟨_, rfl, rfl⟩
  rcases fails node _ params 0 0 labels _ asks rfl run answered with ⟨_, same, rfl⟩
  cases same

end Examples

end ContractInstance

end ContractClient
