import ContractClient.Proofs.Batch.Provider
import ContractClient.Proofs.Rpc.Agreement

/-!
# Rejected batches

A node may reject a whole batch by one object with an error. Over HTTP the error fails the round
trip, and with it every handle. A provider makes a response of it, and a flush takes that for the
reply to a single request: the error gets to a handle only if the batch has no other, and the object
carries its number or none (`Batch.History.flush_reports_rejection`). Otherwise the handles fail for
a reply that does not belong to the batch (`Batch.History.not_reported_together`).
-/

namespace ContractClient

open Activity Outcome

section RoundTrips

variable {start stop : Rat} {labels : List Label} {requests : List RpcRequest}
  {entries error : Dict} {ending : Ending (List RpcResponse)}

namespace Http

variable {config : TransportConfig} {body : Bytes}

/-- What is posted for a batch. -/
def batchBody (requests : List RpcRequest) : Value :=
  .list (requests.map RpcRequest.toValue)

/-- What is done with the value of the reply to a batch. -/
def answeredBatch : Value → Activity (List RpcResponse)
  | .dict entries => match Dict.get? entries "error" with
    | some error => do Activity.fault (← Fault.ofErrorObject error "batch")
    | none => sendBatch.unexpected
  | .list items => items.mapM fun item => (RpcResponse.ofValue item : Activity RpcResponse)
  | _ => sendBatch.unexpected

theorem sendBatch_eq : sendBatch config requests =
    if requests.isEmpty then pure []
    else post config (batchBody requests) "batch" >>= answeredBatch := by
  rw [sendBatch]
  split
  · rfl
  · refine congrArg (post config (batchBody requests) "batch" >>= ·) (funext fun payload => ?_)
    cases payload <;> rfl

theorem quiet_answeredBatch (payload : Value) : (answeredBatch payload).Asks fun _ => False := by
  cases payload with
  | dict entries =>
      rw [answeredBatch]
      split
      · exact Asks.bind (Asks.lift _) fun _ => trivial
      · trivial
  | list items => exact Asks.mapM fun item => Asks.lift _
  | _ => trivial

/-- Over HTTP, an error object fails the round trip of a whole batch. -/
theorem sendBatch_rejected (read : Json.readBytes? body = some (.dict entries))
    (rejects : Dict.get? entries "error" = some (.dict error))
    (run : Run (sendBatch config requests) start labels ending stop)
    (posted : Posted (batchBody requests) ⟨200, body⟩ labels) :
    ending = .ended (Outcome.fault (.reported error "batch")) := by
  rw [sendBatch_eq] at run
  split at run
  · rcases Run.done_inv run with ⟨rfl, _⟩
    simp at posted
  · have carries := valueOfReply_of_read read "batch"
    rcases post_bind_inv quiet_answeredBatch carries run posted with ⟨_, _, after, rfl, reads⟩
    have showable : (Value.dict error).isShowable = true :=
      Value.isShowable_of_get? (Json.isShowable_of_readBytes? read) rejects
    rw [answeredBatch, rejects] at reads
    simp only [Fault.ofErrorObject_dict showable] at reads
    exact (Run.done_inv reads).2.1

end Http

namespace Provider

/-- A provider answered a batch so. -/
def ProvidedBatch (requests : List RpcRequest) (reply : Value) (labels : List Label) : Prop :=
  ∃ start stop, .asked (.provideBatch (requests.map RpcRequest.question)) start stop
    (.answer (.ok reply)) ∈ labels

/-- The response that a provider's rejection is read as. -/
def rejection (entries error : Dict) : RpcResponse where
  id := Dict.memberOf entries "id"
  result := Dict.memberOf entries "result"
  error := .dict error

/-- What comes back for a batch. -/
def repliedBatch : Reply (Outcome Value) → Outcome Value
  | .answer (.ok raw) => .ok raw
  | .answer (.error failure) => .error (failureOf "batch" none failure)
  | _ => .error (failureOf "batch" none .cancelled)

/-- What is done with the reply to a batch. -/
def answeredBatch : Value → Activity (List RpcResponse)
  | .dict entries => do return [← responseOf (.dict entries) "batch"]
  | other => do
    let items ← other.elements
    items.mapM fun item => (responseOf item "batch" : Activity RpcResponse)

theorem sendTogether_eq : sendTogether requests =
    ask (.provideBatch (requests.map RpcRequest.question)) none fun reply =>
      liftM (repliedBatch reply) >>= answeredBatch := by
  refine congrArg (ask (.provideBatch (requests.map RpcRequest.question)) none)
    (funext fun reply => ?_)
  rcases reply with outcome | _ | _
  · cases outcome with
    | error failure => rfl
    | ok raw => cases raw <;> rfl
  · rfl
  · rfl

theorem quiet_answeredBatch (reply : Value) : (answeredBatch reply).Asks fun _ => False := by
  cases reply with
  | dict entries => exact Asks.bind (Asks.lift _) fun _ => trivial
  | _ => exact Asks.bind (Asks.lift _) fun _ => Asks.mapM fun item => Asks.lift _

theorem answeredBatch_rejected (rejects : Dict.get? entries "error" = some (.dict error)) :
    answeredBatch (.dict entries) = done (.ok [rejection entries error]) := by
  have found : errorOf (Value.ofOption (Dict.get? entries "error")) = .ok (.dict error) := by
    rw [rejects]
    rfl
  rw [answeredBatch, responseOf_dict "batch" .null found, Dict.ofOption_get?]
  rfl

/-- A provider's error object for a whole batch is read as one response. -/
theorem sendTogether_rejected (rejects : Dict.get? entries "error" = some (.dict error))
    (run : Run (sendTogether requests) start labels ending stop)
    (provided : ProvidedBatch requests (.dict entries) labels) :
    ending = .ended (.ok [rejection entries error]) := by
  rw [sendTogether_eq] at run
  cases run with
  | stuck endless => simp [ProvidedBatch] at provided
  | @ask _ _ _ reply _ _ _ _ _ early closes next =>
      rcases provided with ⟨_, _, member⟩
      rcases List.mem_cons.mp member with here | later
      · cases here
        change Run (answeredBatch (.dict entries)) _ _ _ _ at next
        rw [answeredBatch_rejected rejects] at next
        exact (Run.done_inv next).2.1
      · have quiet : (liftM (repliedBatch reply) >>= answeredBatch).Asks fun _ => False :=
          Asks.bind (Asks.lift _) quiet_answeredBatch
        exact (quiet.of_run next _ (List.mem_filterMap.mpr ⟨_, later, rfl⟩)).elim

end Provider

end RoundTrips

namespace Batch

open Provider (Numbers rejection)

section Conclusions

variable {requests : List SentRequest} {sent : SentRequest} {entries error : Dict} {batch : Batch}

/-- The handles of requests have failed with what an error object reports. -/
def Reported (error : Dict) (requests : List SentRequest) (batch : Batch) : Prop :=
  ∀ sent ∈ requests, ∃ method params,
    batch.handles[sent.1]? = some (.resolved (Outcome.fault (.reported error method params)))

/-- The handles of requests have failed for a reply that does not belong to them. -/
def Desynced (requests : List SentRequest) (batch : Batch) : Prop :=
  ∃ fault, fault.kind = .batchDesync ∧
    ∀ sent ∈ requests, batch.handles[sent.1]? = some (.resolved (Outcome.fault fault))

/-- An object can be taken for the reply to requests: there is one, and the object carries its
number or none. -/
def AnswersOne (requests : List SentRequest) (entries : Dict) : Prop :=
  ∃ sent, requests = [sent] ∧ Numbers sent.2 entries

theorem not_reported_of_desynced (waits : requests ≠ []) (desynced : Desynced requests batch) :
    ¬Reported error requests batch := by
  intro reported
  rcases desynced with ⟨fault, kind, failed⟩
  rcases List.exists_mem_of_ne_nil requests waits with ⟨sent, member⟩
  rcases reported sent member with ⟨method, params, found⟩
  have same : fault = .reported error method params := by
    simpa [failed sent member, Outcome.fault] using found
  rw [same] at kind
  cases kind

theorem echoes_rejection {request : RpcRequest} :
    echoes request (rejection entries error) = true ↔ Numbers request entries :=
  Provider.numbers_iff rfl (Or.inl rfl)

theorem correlates_rejection_iff :
    Correlates (requests.map Prod.snd) [rejection entries error] ↔ AnswersOne requests entries := by
  constructor
  · intro correlates
    have length : requests.length = 1 := by simpa [eq_comm] using correlates.1
    obtain ⟨sent, rfl⟩ := List.length_eq_one_iff.mp length
    exact ⟨sent, rfl, echoes_rejection.mp (correlates.2 _ _ List.mem_cons_self)⟩
  · rintro ⟨sent, rfl, numbers⟩
    refine ⟨rfl, fun request response member => ?_⟩
    obtain ⟨rfl, rfl⟩ : request = sent.2 ∧ response = rejection entries error := by
      simpa using member
    exact echoes_rejection.mpr numbers

theorem conclude_rejection_of_answersOne (showable : (Value.dict error).isShowable = true)
    (numbers : Numbers sent.2 entries) :
    conclude [sent] (.ok [rejection entries error]) =
      ([(sent.1, Outcome.fault
        (.reported error sent.2.method (some (.list sent.2.params))))], .ok 1) := by
  have correlates : Correlates ([sent].map Prod.snd) [rejection entries error] :=
    correlates_rejection_iff.mpr ⟨sent, rfl, numbers⟩
  have reports := Fault.ofErrorObject_dict showable sent.2.method (some (.list sent.2.params))
  have reportable : (rejection entries error).error.IsReportable :=
    Fault.ofErrorObject_eq_ok_iff.mp ⟨_, reports⟩
  have own : ownReply sent.2 (rejection entries error) =
      Outcome.fault (.reported error sent.2.method (some (.list sent.2.params))) := by
    simp [ownReply, RpcResponse.unwrap, RpcResponse.isError, rejection, reports]
  rw [conclude_of_correlates correlates (List.forall_mem_singleton.mpr fun _ => reportable)]
  simp [own]

theorem conclude_rejection_of_not_answersOne (showable : (Value.dict entries).isShowable = true)
    (foreign : ¬AnswersOne requests entries) :
    ∃ fault, fault.kind = .batchDesync ∧
      conclude requests (.ok [rejection entries error]) =
        (failAll requests (.fault fault), .ok requests.length) := by
  cases checked : desync? (requests.map Prod.snd) [rejection entries error] with
  | error failure =>
      rcases desync?_eq_error checked with ⟨_, request, response, first, hidden⟩
      have inZip := List.mem_of_find?_eq_some first
      have same : response = rejection entries error :=
        List.mem_singleton.mp (List.of_mem_zip inZip).2
      have shown : response.id.isShowable = true := by
        rw [same]
        exact Dict.isShowable_memberOf showable
      simp [shown] at hidden
  | ok desync =>
      cases desync with
      | none =>
          have correlates := desync?_eq_ok_none_iff.mp checked
          exact absurd (correlates_rejection_iff.mp correlates) foreign
      | some fault => exact ⟨fault, kind_of_desync checked, by simp [conclude, checked]⟩

variable (waiting : ∀ sent ∈ requests, batch.handles[sent.1]? = some .waiting)
  (distinct : (requests.map Prod.fst).Nodup)

include waiting distinct

theorem getElem?_resolve_failAll {failure : Failure} (member : sent ∈ requests) :
    (batch.resolve (failAll requests failure)).handles[sent.1]? =
      some (.resolved (.error failure)) := by
  have listed : (sent.1, .error failure) ∈ failAll requests failure :=
    List.mem_map.mpr ⟨sent, member, rfl⟩
  exact getElem?_of_everyHandle waiting distinct map_fst_failAll member listed

theorem reported_of_answersOne (showable : (Value.dict error).isShowable = true)
    (one : AnswersOne requests entries) :
    ∃ resolutions, conclude requests (.ok [rejection entries error]) =
      (resolutions, .ok requests.length) ∧ Reported error requests (batch.resolve resolutions) := by
  rcases one with ⟨sent, rfl, numbers⟩
  refine ⟨_, conclude_rejection_of_answersOne showable numbers, fun other member => ?_⟩
  cases List.mem_singleton.mp member
  exact ⟨_, _, getElem?_of_everyHandle waiting distinct rfl member List.mem_cons_self⟩

theorem desynced_of_not_answersOne (showable : (Value.dict entries).isShowable = true)
    (foreign : ¬AnswersOne requests entries) :
    ∃ resolutions, conclude requests (.ok [rejection entries error]) =
      (resolutions, .ok requests.length) ∧ Desynced requests (batch.resolve resolutions) := by
  rcases conclude_rejection_of_not_answersOne showable foreign with ⟨fault, kind, concluded⟩
  refine ⟨_, concluded, fault, kind, fun sent member => ?_⟩
  exact getElem?_resolve_failAll waiting distinct member

end Conclusions

section Flushes

variable {start stop : Rat} {labels : List Label} {ending : Ending (Batch × Outcome Nat)}
  {batch : Batch} {transport : Transport} {entries error : Dict}

/-- What is asked in a flush is asked in the round trip of its requests, and the flush concludes
what comes back. -/
theorem sendBatch_of_flush {label : Label} (asked : ¬label.IsTold) (member : label ∈ labels)
    (flushes : Run (batch.flush transport) start labels ending stop) :
    let requests := sentRequests batch.pending
    ∃ sent heard moment,
      Run (transport.sendBatch (requests.map Prod.snd)) start sent heard moment ∧ label ∈ sent ∧
        ∀ reply, heard = .ended reply →
          let concluded := conclude requests reply
          ending = .ended (.ok (batch.take.1.resolve concluded.1, concluded.2)) := by
  intro requests
  rcases flush_inv flushes with ⟨exchanged, exchanges, follows⟩
  rcases exchange_inv exchanges with ⟨_, rfl, _⟩ |
    ⟨event, sent, notes, heard, sends, concludes, rfl, told⟩
  · exact absurd member List.not_mem_nil
  · refine ⟨sent, heard, _, sends, ?_, ?_⟩
    · rcases List.mem_cons.mp member with rfl | later
      · exact absurd ⟨_, _, rfl⟩ asked
      · exact (List.mem_append.mp later).resolve_right fun inNotes => asked (told _ inNotes)
    · rintro reply rfl
      cases concludes
      rcases follows with ⟨_, ⟨⟩, rfl⟩ | abandons
      · rfl
      · cases abandons

/-- A flush that is answered so ends with the number of its requests, and leaves such a batch. -/
def FlushesTo (transport : Transport) (batch : Batch) (answered : List Label → Prop)
    (leaves : Batch → Prop) : Prop :=
  ∀ {start stop : Rat} {labels : List Label} {ending : Ending (Batch × Outcome Nat)},
    Run (batch.flush transport) start labels ending stop → answered labels →
      ∃ after, ending = .ended (.ok (after, .ok (sentRequests batch.pending).length)) ∧ leaves after

namespace History

variable {actions : List Action}

/-- Over HTTP, every handle fails with the error of a rejection. -/
theorem reported_overHttp {config : TransportConfig} {body : Bytes}
    (read : Json.readBytes? body = some (.dict entries))
    (rejects : Dict.get? entries "error" = some (.dict error))
    (overHttp : transport.sendBatch = Http.sendBatch config) :
    let requests := sentRequests (run actions).batch.pending
    FlushesTo transport (run actions).batch
      (Http.Posted (Http.batchBody (requests.map Prod.snd)) ⟨200, body⟩)
      (Reported error requests) := by
  rintro requests start stop labels ending flushes ⟨posting, replied, member⟩
  rcases sendBatch_of_flush Label.not_isTold_asked member flushes with
    ⟨sent, heard, moment, sends, inSent, ends⟩
  rw [overHttp] at sends
  have failed := Http.sendBatch_rejected read rejects sends ⟨posting, replied, inSent⟩
  have waiting : ∀ sent ∈ requests, (run actions).batch.take.1.handles[sent.1]? = some .waiting :=
    (Settled.run actions).pending
  have distinct : (requests.map Prod.fst).Nodup := (Slotted.run actions).distinct_pending
  refine ⟨_, ends _ failed, fun sent member => ⟨"batch", none, ?_⟩⟩
  exact getElem?_resolve_failAll waiting distinct member

/-- What a flush makes of a rejection that came back from a provider. -/
theorem flushesTo_of_rejection {provider : Provider} (batches : provider.takesBatches = true)
    (rejects : Dict.get? entries "error" = some (.dict error)) {leaves : Batch → Prop} :
    let requests := sentRequests (run actions).batch.pending
    (∃ resolutions, conclude requests (.ok [rejection entries error]) =
        (resolutions, .ok requests.length) ∧
      leaves ((run actions).batch.take.1.resolve resolutions)) →
    FlushesTo provider.transport (run actions).batch
      (Provider.ProvidedBatch (requests.map Prod.snd) (.dict entries)) leaves := by
  rintro requests ⟨resolutions, concluded, left⟩ start stop labels ending flushes
    ⟨asking, replied, member⟩
  rcases sendBatch_of_flush Label.not_isTold_asked member flushes with
    ⟨sent, heard, moment, sends, inSent, ends⟩
  change Run (provider.sendBatch _) _ _ _ _ at sends
  rw [Provider.sendBatch] at sends
  split at sends
  · rcases Run.done_inv sends with ⟨rfl, _⟩
    exact absurd inSent List.not_mem_nil
  · have heard := Provider.sendTogether_rejected rejects sends ⟨asking, replied, inSent⟩
    change conclude (sentRequests (run actions).batch.pending) _ = _ at concluded
    have ended := ends _ heard
    simp only [concluded] at ended
    exact ⟨_, ended, left⟩

/-- Over a provider, a rejection gets to the handle of the only request that it can be taken for
the reply to. -/
theorem reported_together {provider : Provider} (batches : provider.takesBatches = true)
    (rejects : Dict.get? entries "error" = some (.dict error))
    (showable : (Value.dict entries).isShowable = true) :
    let requests := sentRequests (run actions).batch.pending
    FlushesTo provider.transport (run actions).batch
      (Provider.ProvidedBatch (requests.map Prod.snd) (.dict entries)) fun after =>
        (AnswersOne requests entries → Reported error requests after) ∧
          (¬AnswersOne requests entries → Desynced requests after) := by
  intro requests
  have waiting : ∀ sent ∈ requests, (run actions).batch.take.1.handles[sent.1]? = some .waiting :=
    (Settled.run actions).pending
  have distinct : (requests.map Prod.fst).Nodup := (Slotted.run actions).distinct_pending
  have errorShowable := Value.isShowable_of_get? showable rejects
  apply flushesTo_of_rejection batches rejects
  by_cases one : AnswersOne requests entries
  · rcases reported_of_answersOne waiting distinct errorShowable one with
      ⟨resolutions, concluded, reported⟩
    exact ⟨resolutions, concluded, fun _ => reported, fun foreign => absurd one foreign⟩
  · rcases desynced_of_not_answersOne waiting distinct showable one with
      ⟨resolutions, concluded, desynced⟩
    exact ⟨resolutions, concluded, fun answers => absurd answers one, fun _ => desynced⟩

/-- A node that rejects a whole batch by an error object fails every handle with it over HTTP. Over
a provider it does so exactly if the object can be taken for the reply to the only request that
waits; all handles fail for a reply that does not belong to the batch otherwise. -/
theorem flush_reports_rejection {config : TransportConfig} {provider : Provider} {body : Bytes}
    (waits : sentRequests (run actions).batch.pending ≠ [])
    (read : Json.readBytes? body = some (.dict entries))
    (rejects : Dict.get? entries "error" = some (.dict error))
    (overHttp : transport.sendBatch = Http.sendBatch config)
    (batches : provider.takesBatches = true) :
    let requests := sentRequests (run actions).batch.pending
    FlushesTo transport (run actions).batch
        (Http.Posted (Http.batchBody (requests.map Prod.snd)) ⟨200, body⟩)
        (Reported error requests) ∧
      FlushesTo provider.transport (run actions).batch
        (Provider.ProvidedBatch (requests.map Prod.snd) (.dict entries)) fun after =>
          (Reported error requests after ↔ AnswersOne requests entries) ∧
            (¬AnswersOne requests entries → Desynced requests after) := by
  intro requests
  refine ⟨reported_overHttp read rejects overHttp, ?_⟩
  intro start stop labels ending flushes provided
  have showable := Json.isShowable_of_readBytes? read
  rcases reported_together batches rejects showable flushes provided with
    ⟨after, ended, reported, desynced⟩
  refine ⟨after, ended, ⟨fun failed => ?_, reported⟩, desynced⟩
  by_contra foreign
  exact not_reported_of_desynced waits (desynced foreign) failed

section Examples

/-- Whether a value is an object with an error alone, which has a message alone. -/
def isErrorMember (message : String) : Value → Bool
  | .dict [(key, error)] => key == "error" && isTextMember "message" message error
  | _ => false

def tooLarge : Dict :=
  [("message", .text "batch too large")]

/-- A reply that rejects a batch. -/
def tooLargeReply : Dict :=
  [("error", .dict tooLarge)]

def tooLargeBody : Bytes :=
  Bytes.ofText "\x7b\"error\":\x7b\"message\":\"batch too large\"\x7d\x7d"

theorem read_tooLargeBody : Json.readBytes? tooLargeBody = some (.dict tooLargeReply) := by
  have found : (Json.readBytes? tooLargeBody).any (isErrorMember "batch too large") = true := by
    decide +kernel
  cases read : Json.readBytes? tooLargeBody with
  | none => simp [read] at found
  | some value =>
      rw [read, Option.any_some] at found
      unfold isErrorMember at found
      split at found
      · next key error =>
          unfold isTextMember at found
          split at found
          · simpa [tooLargeReply, tooLarge] using found
          · simp at found
      · cases found

/-- What waits is sent in a flush. -/
theorem flush_run {batch : Batch} {sent : List Label} {reply : Outcome (List RpcResponse)}
    (waits : (sentRequests batch.pending).isEmpty = false)
    (sends : Run (transport.sendBatch ((sentRequests batch.pending).map Prod.snd)) start sent
      (.ended reply) stop) :
    ∃ labels ending, Run (batch.flush transport) start labels ending stop ∧
      ∀ label ∈ sent, label ∈ labels := by
  rcases exchange_run waits sends .ended with ⟨event, notes, exchanges, told⟩
  refine ⟨_, _, exchanges.andThen .done, fun label member => ?_⟩
  simp [member]

/-- A node over HTTP. -/
def overNearby : Transport where
  send method params := Http.send nearby ⟨1, method, params⟩
  sendBatch := Http.sendBatch nearby

theorem flush_rejectedByServer (actions : List Action)
    (waits : (sentRequests (run actions).batch.pending).isEmpty = false) :
    ∃ labels ending, Run ((run actions).batch.flush overNearby) 0 labels ending 0 ∧
      Http.Posted (Http.batchBody ((sentRequests (run actions).batch.pending).map Prod.snd))
        ⟨200, tooLargeBody⟩ labels := by
  generalize requests : sentRequests (run actions).batch.pending = sent at waits
  have attempts : nearby.maxAttempts ≠ 0 := by decide
  have carries := Http.valueOfReply_of_read read_tooLargeBody "batch"
  have sends : ∃ reply, Run (overNearby.sendBatch (sent.map Prod.snd)) 0
      ([.asked (.post (Http.batchBody (sent.map Prod.snd))) 0 0
        (.answer (.ok ⟨200, tooLargeBody⟩))] ++ []) (.ended reply) 0 := by
    change ∃ reply, Run (Http.sendBatch nearby _) _ _ _ _
    rw [Http.sendBatch_eq, List.isEmpty_map, waits]
    exact ⟨_, (Http.post_run attempts carries 0).andThen .done⟩
  subst requests
  rcases sends with ⟨reply, sends⟩
  rcases flush_run waits sends with ⟨labels, ending, flushes, kept⟩
  exact ⟨labels, ending, flushes, 0, 0, kept _ List.mem_cons_self⟩

def batching : Provider :=
  { takesBatches := true }

theorem flush_rejectedTogether (actions : List Action)
    (waits : (sentRequests (run actions).batch.pending).isEmpty = false) :
    ∃ labels ending, Run ((run actions).batch.flush batching.transport) 0 labels ending 0 ∧
      Provider.ProvidedBatch ((sentRequests (run actions).batch.pending).map Prod.snd)
        (.dict tooLargeReply) labels := by
  generalize requests : sentRequests (run actions).batch.pending = sent at waits
  have sends : Run (batching.transport.sendBatch (sent.map Prod.snd)) 0
      [.asked (.provideBatch ((sent.map Prod.snd).map RpcRequest.question)) 0 0
        (.answer (.ok (.dict tooLargeReply)))]
      (.ended (.ok [rejection tooLargeReply tooLarge])) 0 := by
    change Run (batching.sendBatch _) _ _ _ _
    rw [Provider.sendBatch, List.isEmpty_map, waits, Provider.sendTogether_eq]
    refine .ask (by simp) (.atOnce rfl) ?_
    exact .done
  subst requests
  rcases flush_run waits sends with ⟨labels, ending, flushes, kept⟩
  exact ⟨labels, ending, flushes, 0, 0, kept _ List.mem_cons_self⟩

/-- One request, which is rejected. -/
def oneRequest : List Action :=
  [.enqueue "eth_chainId" []]

theorem flush_reports_rejection_single :
    Json.readBytes? tooLargeBody = some (.dict tooLargeReply) ∧
      (∃ labels after, Http.Posted (Http.batchBody [⟨1, "eth_chainId", []⟩])
          ⟨200, tooLargeBody⟩ labels ∧
        Run ((run oneRequest).batch.flush overNearby) 0 labels (.ended (.ok (after, .ok 1))) 0 ∧
        Reported tooLarge [(0, ⟨1, "eth_chainId", []⟩)] after) ∧
      ∃ labels after, Provider.ProvidedBatch [⟨1, "eth_chainId", []⟩] (.dict tooLargeReply) labels ∧
        Run ((run oneRequest).batch.flush batching.transport) 0 labels
          (.ended (.ok (after, .ok 1))) 0 ∧
        Reported tooLarge [(0, ⟨1, "eth_chainId", []⟩)] after := by
  have waits : sentRequests (run oneRequest).batch.pending ≠ [] := List.cons_ne_nil _ _
  have overHttp : overNearby.sendBatch = Http.sendBatch nearby := rfl
  have batches : batching.takesBatches = true := rfl
  rcases flush_reports_rejection waits read_tooLargeBody rfl overHttp batches with
    ⟨fromServer, fromProvider⟩
  refine ⟨read_tooLargeBody, ?_, ?_⟩
  · rcases flush_rejectedByServer oneRequest rfl with ⟨labels, ending, flushes, posted⟩
    rcases fromServer flushes posted with ⟨after, rfl, reported⟩
    exact ⟨labels, after, posted, flushes, reported⟩
  · rcases flush_rejectedTogether oneRequest rfl with ⟨labels, ending, flushes, provided⟩
    rcases fromProvider flushes provided with ⟨after, rfl, reported, _⟩
    have unnumbered : Numbers ⟨1, "eth_chainId", []⟩ tooLargeReply := nofun
    exact ⟨labels, after, provided, flushes, reported.mpr ⟨_, rfl, unnumbered⟩⟩

/-- Two requests, which are rejected together. -/
def twoRequests : List Action :=
  [.enqueue "eth_chainId" [], .enqueue "eth_blockNumber" []]

/-- Over a provider, the error of a batch of two gets to no handle. -/
theorem not_reported_together :
    ¬∀ (actions : List Action) (provider : Provider) (body : Bytes) (entries error : Dict),
      sentRequests (run actions).batch.pending ≠ [] →
        Json.readBytes? body = some (.dict entries) →
          Dict.get? entries "error" = some (.dict error) → provider.takesBatches = true →
            FlushesTo provider.transport (run actions).batch
              (Provider.ProvidedBatch ((sentRequests (run actions).batch.pending).map Prod.snd)
                (.dict entries))
              (Reported error (sentRequests (run actions).batch.pending)) := by
  intro always
  have waits : sentRequests (run twoRequests).batch.pending ≠ [] := List.cons_ne_nil _ _
  rcases flush_rejectedTogether twoRequests rfl with ⟨labels, ending, flushes, provided⟩
  rcases always twoRequests batching tooLargeBody tooLargeReply tooLarge waits read_tooLargeBody rfl
    rfl flushes provided with ⟨after, rfl, reported⟩
  have showable := Json.isShowable_of_readBytes? read_tooLargeBody
  rcases reported_together rfl rfl showable flushes provided with ⟨_, ⟨⟩, _, desynced⟩
  have foreign : ¬AnswersOne (sentRequests (run twoRequests).batch.pending) tooLargeReply := by
    rintro ⟨_, ⟨⟩, _⟩
  exact not_reported_of_desynced waits (desynced foreign) reported

end Examples

end History

end Flushes

end Batch

end ContractClient
