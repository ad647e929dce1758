import ContractClient.Proofs.Contract.CallQueue

/-!
# Calls in a batch

A call can be made at once (`Call.execute`), or added to a queue that is flushed later
(`CallQueue.callInBatch`). `CallQueue.agrees_iff` says when the two agree, for a node that answers
the same in both ways: the caller gets the same value or the same kind of failure, and the node is
asked for the call in the batch exactly if it is asked for it at once.

There are two ways in which they do not (`CallQueue.Diverges`). Only a call that is made at once is
refused because it sends value to a function that takes none
(`CallQueue.not_agrees_unpayable`). And an error that cannot be reported stops the delivery of the
whole batch, so that the handle of the call waits for ever.
-/

namespace ContractClient

namespace CallQueue

open Activity Batch

variable {queue : CallQueue} {decoder : RevertDecoder} {function : ContractFunction}
  {arguments : List Value} {recipient : Value} {options : CallOptions} {node : Node}
  {start stop : Rat} {labels : List Label}

theorem requests_withCall {params : List Value} :
    (queue.withCall function params).1.requests = queue.requests ++
      [(queue.batch.handles.length, ⟨queue.batch.nextId, "eth_call", params⟩)] :=
  sentRequests_append

theorem questions_withCall {params : List Value} :
    (queue.withCall function params).1.questions = queue.questions ++ [("eth_call", params)] := by
  rw [questions, requests_withCall, List.map_append]
  rfl

theorem questions_withFailedCall {fault : Fault} :
    (queue.withFailedCall function fault).1.questions = queue.questions := by
  have same : (queue.withFailedCall function fault).1.requests = queue.requests :=
    sentRequests_append.trans (List.append_nil _)
  rw [questions, same, questions]

/-- A call that has failed before it is sent stays as it is. -/
theorem Sound.result?_withFailedCall (sound : queue.Sound) {fault : Fault}
    (noAnswer : fault.kind.isA .rpc = false) (responses : List RpcResponse) :
    ((queue.withFailedCall function fault).1.answeredBy responses).result? decoder
      (queue.withFailedCall function fault).2 = some (.error (.fault fault)) := by
  have resolved : (queue.withFailedCall function fault).1.batch.take.1.handles[
      queue.batch.handles.length]? = some (.resolved (.error (.fault fault))) :=
    List.getElem?_concat_length
  have belongs : ((queue.withFailedCall function fault).1.answeredBy responses).function?
      (queue.withFailedCall function fault).2 = some function := sound.function?_record _ rfl
  rw [result?_of_resolved (getElem?_resolve_of_resolved resolved) belongs, Call.conclude,
    Call.failureOf, noAnswer]
  rfl

/-- Adds a call to a queue, flushes the queue, and looks at what the call has come to; none if it
still waits. A call that cannot be added has failed, and the other requests are sent all the
same. -/
def callInBatch (queue : CallQueue) (transport : Transport) (decoder : RevertDecoder)
    (function : ContractFunction) (arguments : List Value) (recipient : Value)
    (options : CallOptions := {}) : Activity (Option (Outcome Value)) :=
  match queue.enqueueCall function arguments recipient options with
  | .ok (queue, handle) => do
    let (queue, _) ← queue.flush transport
    return queue.result? decoder handle
  | .error failure => do
    let _ ← queue.flush transport
    return some (.error failure)

/-- How a call in a batch ends, and what the batch asks besides what waited before: the call is
refused for its parameters, it concludes from the answer of the node, or the delivery stops before
it. -/
inductive Batched (node : Node) (decoder : RevertDecoder) (function : ContractFunction)
    (waiting : List (String × List Value)) : Outcome (List Value) → Option (Outcome Value) →
      List (String × List Value) → Prop where
  | refused {failure : Failure} :
      Batched node decoder function waiting (.error failure) (some (.error failure)) waiting
  | concluded {params : List Value}
      (reportable : ∀ question ∈ waiting ++ [("eth_call", params)],
        (node question).IsReportable) :
      Batched node decoder function waiting (.ok params)
        (some (Call.conclude function decoder
          ((node ("eth_call", params)).outcome ("eth_call", params))))
        (waiting ++ [("eth_call", params)])
  | waits {params : List Value} {question : String × List Value}
      (asked : question ∈ waiting ++ [("eth_call", params)])
      (unreportable : ¬(node question).IsReportable) :
      Batched node decoder function waiting (.ok params) none (waiting ++ [("eth_call", params)])

theorem Sound.batched_withCall (sound : queue.Sound) {params : List Value}
    {responses : List RpcResponse}
    (answers : List.Forall₂ (RpcRequest.AnsweredBy node)
      ((queue.withCall function params).1.requests.map Prod.snd) responses) :
    Batched node decoder function queue.questions (.ok params)
      (((queue.withCall function params).1.answeredBy responses).result? decoder
        (queue.withCall function params).2)
      (queue.withCall function params).1.questions := by
  let added := queue.withCall function params
  let own : SentRequest := (added.2, ⟨queue.batch.nextId, "eth_call", params⟩)
  have later : added.1.Sound := sound.recordRequest (some function) "eth_call" params
  have last : added.1.requests = queue.requests ++ [own] := requests_withCall
  have questions : added.1.questions = queue.questions ++ [("eth_call", params)] :=
    questions_withCall
  rw [questions]
  by_cases reportable : ∀ question ∈ added.1.questions, (node question).IsReportable
  · have member : own ∈ added.1.requests := by
      rw [last]
      exact List.mem_concat_self
    have resolved := later.getElem?_answeredBy_of_reportable answers reportable member
    have belongs : (added.1.answeredBy responses).function? added.2 = some function :=
      sound.function?_record (queue.batch.enqueue "eth_call" params) rfl
    rw [result?_of_resolved resolved belongs]
    rw [questions] at reportable
    exact .concluded reportable
  · push Not at reportable
    rcases reportable with ⟨question, asked, unreportable⟩
    have waiting := later.getElem?_answeredBy_of_unreportable answers asked unreportable last
    rw [result?_of_waiting waiting]
    rw [questions] at asked
    exact .waits asked unreportable

theorem callInBatch_added_inv {added : CallQueue × Nat}
    {ending : Ending (Option (Outcome Value))}
    (enqueued : queue.enqueueCall function arguments recipient options = .ok added)
    (run : Run (queue.callInBatch .direct decoder function arguments recipient options) start labels
      ending stop)
    (answered : ∀ label ∈ labels, label.AnsweredBy node) :
    transmitted labels = added.1.questions ∧ ∃ responses,
      List.Forall₂ (RpcRequest.AnsweredBy node) (added.1.requests.map Prod.snd) responses ∧
      ending = .ended (.ok ((added.1.answeredBy responses).result? decoder added.2)) := by
  rw [callInBatch, enqueued] at run
  rcases Run.bind_pure_inv run with ⟨flushed, flushing, outcome⟩
  rcases flush_answered_inv flushing answered with ⟨asked, responses, answers, count, rfl⟩
  refine ⟨asked, responses, answers, ?_⟩
  rcases outcome with ⟨value, same, rfl⟩ | abandons
  · cases same
    rfl
  · cases abandons

theorem callInBatch_inv {ending : Ending (Option (Outcome Value))} (sound : queue.Sound)
    (run : Run (queue.callInBatch .direct decoder function arguments recipient options) start labels
      ending stop)
    (answered : ∀ label ∈ labels, label.AnsweredBy node) :
    ∃ own, ending = .ended (.ok own) ∧
      Batched node decoder function queue.questions
        (Call.paramsOf function arguments recipient options) own (transmitted labels) := by
  rcases enqueueCall_cases with
    ⟨params, made, added⟩ | ⟨fault, made, noAnswer, added⟩ | ⟨failure, made, added⟩
  · rcases callInBatch_added_inv added run answered with ⟨asked, responses, answers, rfl⟩
    rw [made, asked]
    exact ⟨_, rfl, sound.batched_withCall answers⟩
  · rcases callInBatch_added_inv added run answered with ⟨asked, responses, answers, rfl⟩
    rw [made, asked, questions_withFailedCall, sound.result?_withFailedCall noAnswer]
    exact ⟨_, rfl, .refused⟩
  · rw [callInBatch, added] at run
    rcases Run.bind_pure_inv run with ⟨flushed, flushing, outcome⟩
    rcases flush_answered_inv flushing answered with ⟨asked, responses, answers, count, rfl⟩
    rcases outcome with ⟨value, same, rfl⟩ | abandons
    · rw [made, asked]
      exact ⟨_, rfl, .refused⟩
    · cases abandons

/-- Whatever a node answers, a call in a batch can be made. -/
theorem callInBatch_run (node : Node) (queue : CallQueue) (decoder : RevertDecoder)
    (function : ContractFunction) (arguments : List Value) (recipient : Value)
    (options : CallOptions) (start : Rat) :
    ∃ labels ending,
      Run (queue.callInBatch .direct decoder function arguments recipient options) start labels
        ending start ∧
      ∀ label ∈ labels, label.AnsweredBy node := by
  rw [callInBatch]
  split
  · next later handle _ =>
    rcases flush_run node later start with ⟨labels, result, run, answered⟩
    exact ⟨labels ++ [], _, run.andThen .done, by rwa [List.append_nil]⟩
  · rcases flush_run node queue start with ⟨labels, result, run, answered⟩
    exact ⟨labels ++ [], _, run.andThen .done, by rwa [List.append_nil]⟩

/-- Two calls come to the same: a value, or a failure of the same kind with the same code, and with
the same reason and payload if the calls have reverted. -/
inductive Alike : Outcome Value → Outcome Value → Prop where
  | same {outcome : Outcome Value} : Alike outcome outcome
  | fault {first second : Fault} (kind : first.kind = second.kind) (code : first.code = second.code)
      (reverted : first.kind = .callReverted → first.payload = second.payload) :
      Alike (.error (.fault first)) (.error (.fault second))

/-- A failure that rejects an input, as the refusal of a value does. -/
def IsInvalidInput (failure : Failure) : Prop :=
  ∃ fault, failure = .fault fault ∧ fault.kind = .validation ∧
    fault.code = FaultKind.validation.defaultCode

theorem alike_notPayable_iff {failure : Failure} :
    Alike (Outcome.fault (Call.notPayable function)) (.error failure) ↔ IsInvalidInput failure := by
  constructor
  · intro alike
    cases alike with
    | same => exact ⟨_, rfl, rfl, rfl⟩
    | fault kind code _ => exact ⟨_, rfl, kind.symm, code.symm⟩
  · rintro ⟨fault, rfl, kind, code⟩
    exact .fault kind.symm code.symm nofun

/-- A call in a batch agrees with one that is made at once: both end and come to the same, and the
batch asks what waited before and what the other call asks. -/
structure Agrees (waiting : List (String × List Value)) (ending : Ending Value)
    (asked : List (String × List Value)) (batchEnding : Ending (Option (Outcome Value)))
    (batchAsked : List (String × List Value)) : Prop where
  ended : ∃ outcome own, ending = .ended outcome ∧ batchEnding = .ended (.ok (some own)) ∧
    Alike outcome own
  asked : batchAsked = waiting ++ asked

/-- Why a call in a batch does not agree with one that is made at once. -/
inductive Diverges (node : Node) (waiting : List (String × List Value))
    (function : ContractFunction) (arguments : List Value) (recipient : Value)
    (options : CallOptions) : Prop where
  /-- Only the call that is made at once is refused, and the other one is not invalid itself. -/
  | unpayable (unpayable : Call.IsUnpayable function options)
      (valid : ∀ failure, Call.paramsOf function arguments recipient options = .error failure →
        ¬IsInvalidInput failure)
  /-- The delivery of the batch stops before the call gets its answer. -/
  | unreported {params : List Value} {question : String × List Value}
      (made : Call.paramsOf function arguments recipient options = .ok params)
      (asked : question ∈ waiting ++ [("eth_call", params)])
      (unreportable : ¬(node question).IsReportable)

section Comparison

variable {waiting asked batchAsked : List (String × List Value)} {ending : Ending Value}
  {own : Option (Outcome Value)}

theorem agrees_iff_of_unpayable (unpayable : Call.IsUnpayable function options)
    (batched : Batched node decoder function waiting
      (Call.paramsOf function arguments recipient options) own batchAsked) :
    Agrees waiting (.ended (Outcome.fault (Call.notPayable function))) [] (.ended (.ok own))
        batchAsked ↔
      ¬Diverges node waiting function arguments recipient options := by
  generalize made : Call.paramsOf function arguments recipient options = params at batched
  have sent : ∀ {question : String × List Value}, waiting ++ [question] ≠ waiting ++ [] := by
    intro question same
    simp at same
  cases batched with
  | @refused failure =>
      constructor
      · rintro ⟨⟨outcome, own, ⟨⟩, ⟨⟩, alike⟩, _⟩ diverges
        cases diverges with
        | unpayable _ valid => exact valid failure made (alike_notPayable_iff.mp alike)
        | unreported other _ _ => cases made.symm.trans other
      · intro agree
        have invalid : IsInvalidInput failure := by
          by_contra fine
          refine agree (.unpayable unpayable fun other same => ?_)
          cases made.symm.trans same
          exact fine
        exact ⟨⟨_, _, rfl, rfl, alike_notPayable_iff.mpr invalid⟩, (List.append_nil waiting).symm⟩
  | concluded _ | waits _ _ =>
      constructor
      · intro agrees
        exact absurd agrees.asked sent
      · intro agree
        exact absurd
          (.unpayable unpayable fun failure other => by cases made.symm.trans other) agree

theorem agrees_iff_of_payable (payable : ¬Call.IsUnpayable function options)
    (direct : Call.Executed node decoder function
      (Call.paramsOf function arguments recipient options) ending asked)
    (batched : Batched node decoder function waiting
      (Call.paramsOf function arguments recipient options) own batchAsked) :
    Agrees waiting ending asked (.ended (.ok own)) batchAsked ↔
      ¬Diverges node waiting function arguments recipient options := by
  generalize made : Call.paramsOf function arguments recipient options = params at direct batched
  cases direct with
  | refused =>
      cases batched
      refine iff_of_true ⟨⟨_, _, rfl, rfl, .same⟩, (List.append_nil waiting).symm⟩ ?_
      intro diverges
      cases diverges with
      | unpayable refused _ => exact payable refused
      | unreported other _ _ => cases made.symm.trans other
  | concluded =>
      cases batched with
      | concluded reportable =>
          refine iff_of_true ⟨⟨_, _, rfl, rfl, .same⟩, rfl⟩ ?_
          intro diverges
          cases diverges with
          | unpayable refused _ => exact payable refused
          | unreported other asked unreportable =>
              cases made.symm.trans other
              exact unreportable (reportable _ asked)
      | waits asked unreportable =>
          refine iff_of_false ?_ (not_not_intro (.unreported made asked unreportable))
          rintro ⟨⟨_, _, _, same, _⟩, _⟩
          cases same

end Comparison

/-- A call in a batch agrees with one that is made at once unless there is a reason why not. -/
theorem agrees_iff {batchStart batchStop : Rat} {batchLabels : List Label} {ending : Ending Value}
    {batchEnding : Ending (Option (Outcome Value))} (sound : queue.Sound)
    (run : Run (Call.execute .direct decoder function arguments recipient options) start labels
      ending stop)
    (batchRun : Run (queue.callInBatch .direct decoder function arguments recipient options)
      batchStart batchLabels batchEnding batchStop)
    (answered : ∀ label ∈ labels ++ batchLabels, label.AnsweredBy node) :
    Agrees queue.questions ending (transmitted labels) batchEnding (transmitted batchLabels) ↔
      ¬Diverges node queue.questions function arguments recipient options := by
  rw [List.forall_mem_append] at answered
  have direct := Call.execute_inv run answered.1
  rcases callInBatch_inv sound batchRun answered.2 with ⟨own, rfl, batched⟩
  by_cases unpayable : Call.IsUnpayable function options
  · rw [Call.checkedParams_of_isUnpayable unpayable] at direct
    generalize transmitted labels = asked at direct ⊢
    cases direct
    exact agrees_iff_of_unpayable unpayable batched
  · rw [Call.checkedParams_of_not unpayable] at direct
    exact agrees_iff_of_payable unpayable direct batched

section Examples

/-- A function without parameters that takes no value. -/
def ping : ContractFunction where
  name := "ping"

def pinged : Value :=
  .text "0x00000000000000000000000000000000000000aa"

theorem exists_paramsOf_ping :
    ∃ params, Call.paramsOf ping [] pinged { value := .int 1 } = .ok params :=
  ⟨_, rfl⟩

/-- A node that executes no calls. -/
def revertingNode : Node := fun question =>
  if question.1 = "eth_call" then
    .error [("code", .int 3), ("message", .text "execution reverted")]
  else .result (.text "0x1")

theorem isReportable_revertingNode (question : String × List Value) :
    (revertingNode question).IsReportable := by
  rw [revertingNode]
  split
  · exact ⟨_, rfl, rfl⟩
  · trivial

/-- A queue in which another request waits. -/
def chainIdQueue : CallQueue :=
  (({} : CallQueue).enqueue "eth_chainId" []).1

theorem agrees_iff_reverting :
    ∃ labels ending batchLabels batchEnding,
      Run (Call.execute .direct .standard ping [] pinged) 0 labels ending 0 ∧
      Run (chainIdQueue.callInBatch .direct .standard ping [] pinged) 0 batchLabels batchEnding 0 ∧
      Agrees [("eth_chainId", [])] ending (transmitted labels) batchEnding
        (transmitted batchLabels) := by
  rcases Call.execute_run revertingNode .standard ping [] pinged {} 0 with
    ⟨labels, ending, run, answered⟩
  rcases callInBatch_run revertingNode chainIdQueue .standard ping [] pinged {} 0 with
    ⟨batchLabels, batchEnding, batchRun, batchAnswered⟩
  have sound : chainIdQueue.Sound := sound_new.enqueue "eth_chainId" []
  refine ⟨labels, ending, batchLabels, batchEnding, run, batchRun, ?_⟩
  apply (agrees_iff sound run batchRun
    (List.forall_mem_append.mpr ⟨answered, batchAnswered⟩)).mpr
  intro diverges
  cases diverges with
  | unpayable refused _ => cases refused.1
  | unreported _ _ unreportable => exact unreportable (isReportable_revertingNode _)

/-- A call that sends value to a function that takes none is refused at once, but asked in a
batch. -/
theorem not_agrees_unpayable :
    ¬∀ (queue : CallQueue) (node : Node) (decoder : RevertDecoder) (function : ContractFunction)
        (arguments : List Value) (recipient : Value) (options : CallOptions)
        (start stop batchStart batchStop : Rat) (labels batchLabels : List Label)
        (ending : Ending Value) (batchEnding : Ending (Option (Outcome Value))),
      queue.Sound →
      Run (Call.execute .direct decoder function arguments recipient options) start labels ending
        stop →
      Run (queue.callInBatch .direct decoder function arguments recipient options) batchStart
        batchLabels batchEnding batchStop →
      (∀ label ∈ labels ++ batchLabels, label.AnsweredBy node) →
      Agrees queue.questions ending (transmitted labels) batchEnding (transmitted batchLabels) := by
  intro always
  let sending : CallOptions := { value := .int 1 }
  rcases Call.execute_run revertingNode .standard ping [] pinged sending 0 with
    ⟨labels, ending, run, answered⟩
  rcases callInBatch_run revertingNode {} .standard ping [] pinged sending 0 with
    ⟨batchLabels, batchEnding, batchRun, batchAnswered⟩
  have agrees := always {} revertingNode .standard ping [] pinged sending 0 0 0 0 labels batchLabels
    ending batchEnding sound_new run batchRun
    (List.forall_mem_append.mpr ⟨answered, batchAnswered⟩)
  have unpayable : Call.IsUnpayable ping sending := ⟨rfl, rfl⟩
  have direct := Call.execute_inv run answered
  rw [Call.checkedParams_of_isUnpayable unpayable] at direct
  rcases callInBatch_inv sound_new batchRun batchAnswered with ⟨own, rfl, batched⟩
  generalize transmitted labels = asked at direct agrees
  cases direct
  refine (agrees_iff_of_unpayable unpayable batched).mp agrees (.unpayable unpayable ?_)
  intro failure refused
  rcases exists_paramsOf_ping with ⟨params, made⟩
  cases made.symm.trans refused

end Examples

end CallQueue

end ContractClient
