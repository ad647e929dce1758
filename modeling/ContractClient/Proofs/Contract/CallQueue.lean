import ContractClient.Contract.CallQueue
import ContractClient.Proofs.Batch.Provider
import ContractClient.Proofs.Contract.Call

/-!
# Queues of calls

A queue is sound if its batch has a history and every handle has its place in the list of functions
(`CallQueue.Sound`). Whatever is done to a new queue leaves a sound one
(`CallQueue.Reachable.sound`). When a sound queue is flushed and the
node answers every request, each handle gets its answer
(`CallQueue.Sound.getElem?_answeredBy_of_reportable`), unless an error among the answers cannot be
reported: then the last request still waits
(`CallQueue.Sound.getElem?_answeredBy_of_unreportable`).
-/

namespace ContractClient

namespace Batch

open Activity

section Deliveries

variable {node : Node} {requests : List SentRequest} {responses : List RpcResponse}

theorem correlates_of_answered {requests : List RpcRequest}
    (answers : List.Forall₂ (RpcRequest.AnsweredBy node) requests responses) :
    Correlates requests responses := by
  rcases List.forall₂_iff_zip.mp answers with ⟨length, each⟩
  exact ⟨length.symm, fun _ _ member => (each member).1⟩

theorem reportable_iff {requests : List RpcRequest}
    (answers : List.Forall₂ (RpcRequest.AnsweredBy node) requests responses) :
    (∀ response ∈ responses, response.isError = true → response.error.IsReportable) ↔
      ∀ question ∈ requests.map RpcRequest.question, (node question).IsReportable := by
  induction answers with
  | nil => simp
  | @cons request response requests responses first rest ih =>
      rw [List.forall_mem_cons, List.map_cons, List.forall_mem_cons, ih,
        NodeAnswer.isReportable_iff _ response.id, ← first.2]

/-- A delivery that stops does not get to the last request. -/
theorem fst_mem_dropLast_of_mem_deliver (length : responses.length = requests.length)
    (stops : ∃ response ∈ responses, response.isError = true ∧ ¬response.error.IsReportable)
    {resolution : Nat × Outcome Value} (member : resolution ∈ (deliver requests responses).1) :
    resolution.1 ∈ requests.dropLast.map Prod.fst := by
  induction requests generalizing responses with
  | nil => simp [deliver] at member
  | cons sent requests ih =>
      rcases sent with ⟨handle, request⟩
      cases responses with
      | nil => simp [deliver] at member
      | cons first responses =>
          have restLength : responses.length = requests.length := by simpa using length
          rcases stops with ⟨response, inResponses, failed, unreportable⟩
          rcases List.mem_cons.mp inResponses with rfl | inRest
          · cases reported : Fault.ofErrorObject response.error request.method
                (some (.list request.params)) with
            | ok fault =>
                exact absurd (Fault.ofErrorObject_eq_ok_iff.mp ⟨fault, reported⟩) unreportable
            | error failure => simp [deliver, failed, reported] at member
          · have here : resolution.1 = handle ∨ resolution ∈ (deliver requests responses).1 := by
              rw [deliver] at member
              split at member
              · split at member
                · exact (List.mem_cons.mp member).imp_left (congrArg Prod.fst)
                · exact absurd member List.not_mem_nil
              · exact (List.mem_cons.mp member).imp_left (congrArg Prod.fst)
            have nonempty : requests ≠ [] := by
              rintro rfl
              rw [List.length_eq_zero_iff.mp restLength] at inRest
              exact List.not_mem_nil inRest
            rw [List.dropLast_cons_of_ne_nil nonempty, List.map_cons, List.mem_cons]
            exact here.imp_right (ih restLength ⟨response, inRest, failed, unreportable⟩)

theorem fst_conclude_of_correlates (correlates : Correlates (requests.map Prod.snd) responses) :
    (conclude requests (.ok responses)).1 = (deliver requests responses).1 := by
  rw [conclude]
  simp only [desync?_eq_ok_none_iff.mpr correlates]

theorem exists_answer
    (answers : List.Forall₂ (RpcRequest.AnsweredBy node) (requests.map Prod.snd) responses)
    {sent : SentRequest} (member : sent ∈ requests) :
    ∃ response, (sent, response) ∈ requests.zip responses ∧
      ownReply sent.2 response = (node sent.2.question).outcome sent.2.question := by
  rcases List.forall₂_iff_zip.mp answers with ⟨length, each⟩
  rw [List.length_map] at length
  rw [← List.map_fst_zip (Nat.le_of_eq length), List.mem_map] at member
  rcases member with ⟨⟨sent, response⟩, paired, rfl⟩
  have answer := (each (mem_zip_map_snd.mpr ⟨sent.1, paired⟩)).2
  refine ⟨response, paired, ?_⟩
  rw [answer]
  exact NodeAnswer.ownReply_response _ _ _

end Deliveries

/-- A batch that was flushed has a history. -/
theorem History.exists_run_flush {actions : List Action} {transport : Transport} {start stop : Rat}
    {labels : List Label} {result : Batch × Outcome Nat}
    (flushes : Run ((History.run actions).batch.flush transport) start labels
      (.ended (.ok result)) stop) :
    (∃ more, result.1 = (History.run (actions ++ more)).batch) ∧
      result.1.handles.length = (History.run actions).batch.handles.length := by
  by_cases waits : sentRequests (History.run actions).batch.pending = []
  · rw [History.flush_eq_of_nil waits] at flushes
    rcases Run.done_inv flushes with ⟨_, ended, _⟩
    cases ended
    refine ⟨⟨[.beginFlush], ?_⟩, rfl⟩
    rw [History.run_concat]
  · rcases (History.flush_mirrors waits _ _ _ _).mp ⟨labels, flushes, rfl⟩ with
      ⟨_, _, _, _, ends⟩
    cases ends with
    | @ended reply =>
        refine ⟨⟨[.beginFlush, .endFlush (History.run actions).flushes.length reply], ?_⟩, ?_⟩
        · rw [← List.singleton_append, ← List.append_assoc, History.run_concat, History.run_concat]
        · rw [History.length_handles_endFlush]
          rfl

/-- The reply to a flush may come after a request was added. -/
theorem History.resolve_conclude_of_enqueue {actions : List Action}
    (waits : sentRequests (History.run actions).batch.pending ≠ []) (method : String)
    (params : List Value) (reply : Outcome (List RpcResponse)) :
    ((History.run actions).batch.take.1.enqueue method params).1.resolve
        (conclude (sentRequests (History.run actions).batch.pending) reply).1 =
      (History.run (actions ++ [.beginFlush] ++ [.enqueue method params] ++
        [.endFlush (History.run actions).flushes.length reply])).batch := by
  rcases History.isOpen_beginFlush waits with ⟨flush, found, isOpen, requests⟩
  let begun := (History.run actions).perform .beginFlush
  have stillFound : (begun.perform (.enqueue method params)).flushes[
      (History.run actions).flushes.length]? = some flush := found
  rw [History.run_concat, History.run_concat, History.run_concat,
    History.batch_perform_endFlush _ stillFound isOpen, requests]
  rfl

end Batch

namespace CallQueue

open Activity Batch

variable {queue : CallQueue} {decoder : RevertDecoder} {function : ContractFunction}
  {arguments : List Value} {recipient : Value} {options : CallOptions} {node : Node}
  {start stop : Rat} {labels : List Label}

/-- A queue is what has become of a new one: its batch has a history, and every handle has its place
in the list of functions. -/
structure Sound (queue : CallQueue) : Prop where
  history : ∃ actions, queue.batch = (History.run actions).batch
  aligned : queue.functions.length = queue.batch.handles.length

/-- The requests that wait in a queue. -/
def requests (queue : CallQueue) : List SentRequest :=
  sentRequests queue.batch.pending

/-- The questions that wait in a queue. -/
def questions (queue : CallQueue) : List (String × List Value) :=
  queue.requests.map fun sent => sent.2.question

theorem sound_new : Sound {} :=
  ⟨⟨[], rfl⟩, rfl⟩

theorem Sound.waiting (sound : queue.Sound) :
    ∀ sent ∈ queue.requests, queue.batch.take.1.handles[sent.1]? = some .waiting := by
  rcases sound.history with ⟨actions, same⟩
  rw [requests, same]
  exact (History.Settled.run actions).pending

theorem Sound.distinct (sound : queue.Sound) : (queue.requests.map Prod.fst).Nodup := by
  rcases sound.history with ⟨actions, same⟩
  rw [requests, same]
  exact (History.Slotted.run actions).distinct_pending

theorem Sound.recordRequest (sound : queue.Sound) (function : Option ContractFunction)
    (method : String) (params : List Value) :
    (queue.record function (queue.batch.enqueue method params)).1.Sound := by
  rcases sound.history with ⟨actions, same⟩
  refine ⟨⟨actions ++ [.enqueue method params], ?_⟩, ?_⟩
  · rw [Batch.History.run_concat, same]
    rfl
  · simp [CallQueue.record, Batch.enqueue, sound.aligned]

theorem Sound.recordFailure (sound : queue.Sound) (function : Option ContractFunction)
    (failure : Failure) : (queue.record function (queue.batch.enqueueFailed failure)).1.Sound := by
  rcases sound.history with ⟨actions, same⟩
  refine ⟨⟨actions ++ [.enqueueFailed failure], ?_⟩, ?_⟩
  · rw [Batch.History.run_concat, same]
    rfl
  · simp [CallQueue.record, Batch.enqueueFailed, sound.aligned]

theorem Sound.enqueue (sound : queue.Sound) (method : String) (params : List Value) :
    (queue.enqueue method params).1.Sound :=
  sound.recordRequest none method params

theorem Sound.enqueueFailed (sound : queue.Sound) (failure : Failure) :
    (queue.enqueueFailed failure).1.Sound :=
  sound.recordFailure none failure

theorem Sound.discard (sound : queue.Sound) : queue.discard.1.Sound := by
  rcases sound.history with ⟨actions, same⟩
  refine ⟨⟨actions ++ [.discard], ?_⟩, ?_⟩
  · rw [Batch.History.run_concat, CallQueue.discard, same]
    rfl
  · rw [CallQueue.discard, Batch.discard, length_handles_resolve]
    exact sound.aligned

theorem Sound.flush {transport : Transport} {result : CallQueue × Outcome Nat} (sound : queue.Sound)
    (run : Run (queue.flush transport) start labels (.ended (.ok result)) stop) :
    result.1.Sound := by
  rcases sound.history with ⟨actions, same⟩
  rcases Run.bind_pure_inv run with ⟨flushed, flushing, ⟨value, rfl, ended⟩ | abandons⟩
  · rw [same] at flushing
    rcases History.exists_run_flush flushing with ⟨⟨more, performed⟩, length⟩
    cases ended
    exact ⟨⟨actions ++ more, performed⟩, by rw [sound.aligned, same, ← length]⟩
  · cases abandons

/-- A queue to which a call with given parameters was added. -/
def withCall (queue : CallQueue) (function : ContractFunction) (params : List Value) :
    CallQueue × Nat :=
  queue.record (some function) (queue.batch.enqueue "eth_call" params)

/-- A queue in which a place is kept for a call that has failed. -/
def withFailedCall (queue : CallQueue) (function : ContractFunction) (fault : Fault) :
    CallQueue × Nat :=
  queue.record (some function) (queue.batch.enqueueFailed (.fault fault))

theorem enqueueCall_cases :
    (∃ params, Call.paramsOf function arguments recipient options = .ok params ∧
      queue.enqueueCall function arguments recipient options =
        .ok (queue.withCall function params)) ∨
    (∃ fault, Call.paramsOf function arguments recipient options = .error (.fault fault) ∧
      fault.kind.isA .rpc = false ∧
      queue.enqueueCall function arguments recipient options =
        .ok (queue.withFailedCall function fault)) ∨
    ∃ failure, Call.paramsOf function arguments recipient options = .error failure ∧
      queue.enqueueCall function arguments recipient options = .error failure := by
  cases made : Call.paramsOf function arguments recipient options with
  | ok params =>
      refine Or.inl ⟨params, rfl, ?_⟩
      rw [enqueueCall, Batch.enqueueCall, made]
      rfl
  | error failure =>
      refine Or.inr ?_
      cases failure with
      | fault fault =>
          by_cases kept : (fault.kind.isA .encode || fault.kind.isA .validation) = true
          · refine Or.inl ⟨fault, rfl, ?_, ?_⟩
            · revert kept
              cases fault.kind <;> decide
            · simp only [enqueueCall, Batch.enqueueCall, made, if_pos kept]
              rfl
          · refine Or.inr ⟨_, rfl, ?_⟩
            simp only [enqueueCall, Batch.enqueueCall, made, if_neg kept]
            rfl
      | invalidModel issues | condition met text =>
          refine Or.inr ⟨_, rfl, ?_⟩
          rw [enqueueCall, Batch.enqueueCall, made]
          rfl

theorem Sound.enqueueCall {later : CallQueue} {handle : Nat} (sound : queue.Sound)
    (added : queue.enqueueCall function arguments recipient options = .ok (later, handle)) :
    later.Sound := by
  rcases enqueueCall_cases with ⟨params, _, found⟩ | ⟨fault, _, _, found⟩ | ⟨failure, _, found⟩
  · cases found.symm.trans added
    exact sound.recordRequest (some function) "eth_call" params
  · cases found.symm.trans added
    exact sound.recordFailure (some function) (.fault fault)
  · cases found.symm.trans added

/-- A queue that is flushed is sound afterwards, even if a request is added while the reply is on
its way. -/
theorem Sound.flushThenEnqueue {transport : Transport} {method : String} {params : List Value}
    {result : CallQueue × Outcome Nat} (sound : queue.Sound)
    (run : Run (queue.flushThenEnqueue transport method params) start labels (.ended (.ok result))
      stop) : result.1.Sound := by
  rcases sound.history with ⟨actions, same⟩
  have aligned := sound.aligned
  rcases Run.bind_pure_inv run with ⟨exchanged, exchanging, ⟨value, rfl, ended⟩ | abandons⟩
  · clear run
    rw [same] at aligned exchanging ended
    by_cases nothing : sentRequests (History.run actions).batch.pending = []
    · rw [nothing] at exchanging ended
      rcases Run.done_inv exchanging with ⟨_, ⟨⟩, _⟩
      cases ended
      refine ⟨⟨actions ++ [.beginFlush], ?_⟩, aligned⟩
      rw [History.run_concat]
      rfl
    · have waits : (sentRequests (History.run actions).batch.pending).isEmpty = false := by
        simpa using nothing
      rcases exchange_inv exchanging with ⟨empty, _⟩ | ⟨_, _, _, _, _, concludes, _⟩
      · exact absurd empty nothing
      · cases concludes with
        | @ended reply =>
            simp only [waits, Bool.false_eq_true, if_false] at ended
            cases ended
            refine ⟨⟨_, History.resolve_conclude_of_enqueue nothing method params reply⟩, ?_⟩
            rw [length_handles_resolve]
            simp [CallQueue.enqueue, CallQueue.record, Batch.enqueue, aligned]
  · cases abandons

/-- What may become of a new queue, whatever is done to it. -/
inductive Reachable : CallQueue → Prop where
  | new : Reachable {}
  | enqueue {queue : CallQueue} (earlier : Reachable queue) (method : String)
      (params : List Value) : Reachable (queue.enqueue method params).1
  | enqueueFailed {queue : CallQueue} (earlier : Reachable queue) (failure : Failure) :
      Reachable (queue.enqueueFailed failure).1
  | enqueueCall {queue later : CallQueue} {handle : Nat} {function : ContractFunction}
      {arguments : List Value} {recipient : Value} {options : CallOptions}
      (earlier : Reachable queue)
      (added : queue.enqueueCall function arguments recipient options = .ok (later, handle)) :
      Reachable later
  | discard {queue : CallQueue} (earlier : Reachable queue) : Reachable queue.discard.1
  | flush {queue : CallQueue} {transport : Transport} {start stop : Rat} {labels : List Label}
      {result : CallQueue × Outcome Nat} (earlier : Reachable queue)
      (run : Run (queue.flush transport) start labels (.ended (.ok result)) stop) :
      Reachable result.1
  | flushThenEnqueue {queue : CallQueue} {transport : Transport} {method : String}
      {params : List Value} {start stop : Rat} {labels : List Label}
      {result : CallQueue × Outcome Nat} (earlier : Reachable queue)
      (run : Run (queue.flushThenEnqueue transport method params) start labels
        (.ended (.ok result)) stop) : Reachable result.1

theorem Reachable.sound (reachable : queue.Reachable) : queue.Sound := by
  induction reachable with
  | new => exact sound_new
  | enqueue _ method params ih => exact ih.enqueue method params
  | enqueueFailed _ failure ih => exact ih.enqueueFailed failure
  | enqueueCall _ added ih => exact ih.enqueueCall added
  | discard _ ih => exact ih.discard
  | flush _ run ih => exact ih.flush run
  | flushThenEnqueue _ run ih => exact ih.flushThenEnqueue run

/-- What becomes of a queue when the requests that wait are answered. -/
def answeredBy (queue : CallQueue) (responses : List RpcResponse) : CallQueue :=
  { queue with
    batch := queue.batch.take.1.resolve (conclude queue.requests (.ok responses)).1 }

theorem flush_answered_inv {ending : Ending (CallQueue × Outcome Nat)}
    (run : Run (queue.flush .direct) start labels ending stop)
    (answered : ∀ label ∈ labels, label.AnsweredBy node) :
    transmitted labels = queue.questions ∧
      ∃ responses,
        List.Forall₂ (RpcRequest.AnsweredBy node) (queue.requests.map Prod.snd) responses ∧
        ∃ outcome, ending = .ended (.ok (queue.answeredBy responses, outcome)) := by
  rcases Run.bind_pure_inv run with ⟨flushed, flushing, outcome⟩
  rcases flush_inv flushing with ⟨exchanged, exchanges, concluded⟩
  have exchangedBy : transmitted labels = queue.questions ∧
      ∃ responses,
        List.Forall₂ (RpcRequest.AnsweredBy node) (queue.requests.map Prod.snd) responses ∧
        exchanged = .ended (.ok (conclude queue.requests (.ok responses))) := by
    rcases exchange_inv exchanges with
      ⟨nothing, rfl, rfl⟩ | ⟨event, sent, notes, reply, sends, concludes, rfl, told⟩
    · have empty : queue.requests = [] := nothing
      rw [questions, empty]
      exact ⟨rfl, [], .nil, rfl⟩
    · rw [List.forall_mem_cons, List.forall_mem_append] at answered
      rcases sendBatch_answered_inv sends answered.2.1 with ⟨responses, answers, rfl, asked⟩
      cases concludes
      refine ⟨?_, responses, answers, rfl⟩
      have whole : transmitted (.told start event :: (sent ++ notes)) =
          transmitted sent ++ transmitted notes := transmitted_append sent notes
      rw [whole, asked, transmitted_of_told told, List.append_nil, List.map_map]
      rfl
  rcases exchangedBy with ⟨asked, responses, answers, rfl⟩
  refine ⟨asked, responses, answers, ?_⟩
  rcases concluded with ⟨result, same, rfl⟩ | abandons
  · cases same
    rcases outcome with ⟨value, same, rfl⟩ | abandons
    · cases same
      exact ⟨_, rfl⟩
    · cases abandons
  · cases abandons

section Answers

variable {responses : List RpcResponse} {sent : SentRequest}

theorem reportable_iff_of_answered
    (answers : List.Forall₂ (RpcRequest.AnsweredBy node) (queue.requests.map Prod.snd) responses) :
    (∀ response ∈ responses, response.isError = true → response.error.IsReportable) ↔
      ∀ question ∈ queue.questions, (node question).IsReportable := by
  rw [reportable_iff answers, List.map_map]
  rfl

/-- Every handle of a flush gets its own answer if all answers can be reported. -/
theorem Sound.getElem?_answeredBy_of_reportable (sound : queue.Sound)
    (answers : List.Forall₂ (RpcRequest.AnsweredBy node) (queue.requests.map Prod.snd) responses)
    (reportable : ∀ question ∈ queue.questions, (node question).IsReportable)
    (member : sent ∈ queue.requests) :
    (queue.answeredBy responses).batch.handles[sent.1]? =
      some (.resolved ((node sent.2.question).outcome sent.2.question)) := by
  have correlates := correlates_of_answered answers
  have length : responses.length = queue.requests.length := by simpa using correlates.1
  rcases exists_answer answers member with ⟨response, paired, answer⟩
  rw [answeredBy, ← answer,
    conclude_of_correlates correlates ((reportable_iff_of_answered answers).mpr reportable)]
  apply getElem?_of_everyHandle sound.waiting sound.distinct _ member
  · exact List.mem_map.mpr ⟨(sent, response), paired, rfl⟩
  · rw [List.map_map]
    exact map_fst_zip_of_length length

/-- The last handle of a flush still waits if some answer cannot be reported. -/
theorem Sound.getElem?_answeredBy_of_unreportable (sound : queue.Sound)
    (answers : List.Forall₂ (RpcRequest.AnsweredBy node) (queue.requests.map Prod.snd) responses)
    {question : String × List Value} (asked : question ∈ queue.questions)
    (unreportable : ¬(node question).IsReportable) {before : List SentRequest}
    (last : queue.requests = before ++ [sent]) :
    (queue.answeredBy responses).batch.handles[sent.1]? = some .waiting := by
  have correlates := correlates_of_answered answers
  have length : responses.length = queue.requests.length := by simpa using correlates.1
  have stops : ∃ response ∈ responses,
      response.isError = true ∧ ¬response.error.IsReportable := by
    by_contra fine
    refine unreportable ((reportable_iff_of_answered answers).mp ?_ question asked)
    intro response inResponses failed
    by_contra bad
    exact fine ⟨response, inResponses, failed, bad⟩
  have absent : sent.1 ∉ (conclude queue.requests (.ok responses)).1.map Prod.fst := by
    intro delivered
    rw [fst_conclude_of_correlates correlates, List.mem_map] at delivered
    rcases delivered with ⟨resolution, inDelivery, same⟩
    have earlier := fst_mem_dropLast_of_mem_deliver length stops inDelivery
    rw [last, List.dropLast_concat, same] at earlier
    have distinct := sound.distinct
    rw [last, List.map_append, List.map_singleton, ← List.concat_eq_append,
      List.nodup_concat] at distinct
    exact distinct.1 earlier
  have member : sent ∈ queue.requests := by
    rw [last]
    exact List.mem_concat_self
  exact (getElem?_resolve_of_notMem absent).trans (sound.waiting sent member)

end Answers

/-- Whatever a node answers, a queue can be flushed. -/
theorem flush_run (node : Node) (queue : CallQueue) (start : Rat) :
    ∃ labels result, Run (queue.flush .direct) start labels (.ended (.ok result)) start ∧
      ∀ label ∈ labels, label.AnsweredBy node := by
  let answer (request : RpcRequest) : RpcResponse := (node request.question).response .null
  let asked := queue.requests.map Prod.snd
  have exchanged : ∃ labels result,
      Run (exchange .direct queue.requests) start labels (.ended (.ok result)) start ∧
      ∀ label ∈ labels, label.AnsweredBy node := by
    cases empty : queue.requests.isEmpty with
    | true =>
        refine ⟨[], ([], .ok 0), ?_, List.forall_mem_nil _⟩
        rw [exchange, empty]
        exact .done
    | false =>
        have sends : Run (Transport.direct.sendBatch asked) start _
            (.ended (.ok (asked.map answer))) start :=
          .ask (by simp) (@Closes.atOnce start (.batch asked) (.ok (asked.map answer)) rfl) .done
        rcases exchange_run empty sends .ended with ⟨event, notes, run, told⟩
        refine ⟨_, _, run, ?_⟩
        have answers : List.Forall₂ (RpcRequest.AnsweredBy node) asked (asked.map answer) := by
          rw [List.forall₂_map_right_iff, List.forall₂_same]
          intro request _
          refine ⟨?_, ?_⟩
          · rw [echoes, NodeAnswer.id_response]
          · rw [NodeAnswer.id_response]
        rw [List.forall_mem_cons, List.forall_mem_append, List.forall_mem_singleton]
        exact ⟨.told, .batch answers, fun label member => .of_isTold (told label member)⟩
  rcases exchanged with ⟨labels, result, run, answered⟩
  let flushed := (queue.batch.take.1.resolve result.1, result.2)
  have flushes :
      Run (queue.batch.flush .direct) start (labels ++ []) (.ended (.ok flushed)) start :=
    run.andThen .done
  refine ⟨labels ++ [] ++ [], ({ queue with batch := flushed.1 }, flushed.2),
    flushes.andThen .done, ?_⟩
  rwa [List.append_nil, List.append_nil]

theorem Sound.function?_record (sound : queue.Sound) (added : Batch × Nat)
    (placed : added.2 = queue.batch.handles.length) :
    (queue.record (some function) added).1.function? added.2 = some function := by
  rw [function?, CallQueue.record, placed, ← sound.aligned, List.getElem?_concat_length]
  rfl

theorem result?_of_resolved {handle : Nat} {outcome : Outcome Value}
    (resolved : queue.batch.handles[handle]? = some (.resolved outcome))
    (belongs : queue.function? handle = some function) :
    queue.result? decoder handle = some (Call.conclude function decoder outcome) := by
  rw [result?, resolved, belongs]

theorem result?_of_waiting {handle : Nat}
    (waiting : queue.batch.handles[handle]? = some .waiting) :
    queue.result? decoder handle = none := by
  rw [result?, waiting]

end CallQueue

end ContractClient
