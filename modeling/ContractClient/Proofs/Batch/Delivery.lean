import ContractClient.Proofs.Batch.Bookkeeping

/-!
# The delivery of a batch

When a flush ends, every handle that it took should be resolved, and only an interruption should be
raised. `Batch.History.delivers_iff` says exactly when this is so: unless the reply belongs to the
batch and one of its errors cannot be reported, or a wrong number in the reply cannot be shown
(`Batch.Derails`). Then the flush ends halfway (`Batch.History.not_delivers_textError`).
-/

namespace ContractClient

/-- An error of a node that can be reported: an object with a message that can be shown. -/
def Value.IsReportable (error : Value) : Prop :=
  ∃ entries, error = .dict entries ∧
    ((Dict.get? entries "message").getD (.text "unknown RPC error")).isShowable = true

theorem Fault.ofErrorObject_eq_ok_iff {error : Value} {method : String} {params : Option Value} :
    (∃ fault, Fault.ofErrorObject error method params = .ok fault) ↔ error.IsReportable := by
  cases error with
  | dict entries =>
      cases showable :
          ((Dict.get? entries "message").getD (.text "unknown RPC error")).isShowable <;>
        simp [Fault.ofErrorObject, Value.lookup, Value.displayed, Value.IsReportable, showable,
          Outcome.condition]
  | _ => simp [Fault.ofErrorObject, Value.lookup, Value.IsReportable, Outcome.condition]

namespace Batch

section Conclusions

variable {requests : List SentRequest} {responses : List RpcResponse}
  {reply : Outcome (List RpcResponse)}

/-- What a request gets from its response: the result, or the error that the node reports. -/
def ownReply (request : RpcRequest) (response : RpcResponse) : Outcome Value :=
  response.unwrap request.method (some (.list request.params))

/-- A reply for which a flush ends halfway: a response carries a wrong number that cannot be shown,
or the reply belongs to the batch and has an error that cannot be reported. -/
inductive Derails (requests : List SentRequest) : Outcome (List RpcResponse) → Prop where
  | number {responses : List RpcResponse} {request : RpcRequest} {response : RpcResponse}
      (length : responses.length = requests.length)
      (first : ((requests.map Prod.snd).zip responses).find?
        (fun pair => !echoes pair.1 pair.2) = some (request, response))
      (hidden : response.id.isShowable = false) : Derails requests (.ok responses)
  | error {responses : List RpcResponse} {response : RpcResponse}
      (correlates : Correlates (requests.map Prod.snd) responses)
      (member : response ∈ responses) (failed : response.isError = true)
      (unreportable : ¬response.error.IsReportable) : Derails requests (.ok responses)

/-- How a flush ends. A flush without requests sends nothing. -/
def Flush.ending (flush : Flush) (reply : Outcome (List RpcResponse)) : Outcome Nat :=
  if flush.requests.isEmpty then .ok 0 else (conclude flush.requests reply).2

theorem deliver_of_reportable
    (reportable : ∀ response ∈ responses, response.isError = true → response.error.IsReportable) :
    deliver requests responses =
      ((requests.zip responses).map fun pair => (pair.1.1, ownReply pair.1.2 pair.2), .ok ()) := by
  induction requests generalizing responses with
  | nil => simp [deliver]
  | cons sent requests ih =>
      rcases sent with ⟨handle, request⟩
      cases responses with
      | nil => simp [deliver]
      | cons response responses =>
          have rest := ih fun response member => reportable response (List.mem_cons_of_mem _ member)
          cases failed : response.isError with
          | false =>
              simp [deliver, failed, rest, ownReply, RpcResponse.unwrap]
          | true =>
              have found : ∃ fault, Fault.ofErrorObject response.error request.method
                  (some (.list request.params)) = .ok fault :=
                Fault.ofErrorObject_eq_ok_iff.mpr
                  (reportable response List.mem_cons_self failed)
              rcases found with ⟨fault, reported⟩
              simp [deliver, failed, rest, ownReply, RpcResponse.unwrap, reported, Outcome.fault]

theorem deliver_of_unreportable (length : responses.length = requests.length)
    {response : RpcResponse} (member : response ∈ responses) (failed : response.isError = true)
    (unreportable : ¬response.error.IsReportable) :
    ∃ failure, (deliver requests responses).2 = .error failure := by
  induction requests generalizing responses with
  | nil => simp [List.length_eq_zero_iff.mp length] at member
  | cons sent requests ih =>
      rcases sent with ⟨handle, request⟩
      cases responses with
      | nil => simp at member
      | cons first responses =>
          have restLength : responses.length = requests.length := by simpa using length
          cases reported : Fault.ofErrorObject first.error request.method
              (some (.list request.params)) with
          | error failure =>
              -- The delivery may stop here, without getting to the response in question.
              have rest : response ∈ responses → ∃ failure,
                  (deliver requests responses).2 = .error failure := ih restLength
              cases firstFailed : first.isError with
              | true => exact ⟨failure, by simp [deliver, firstFailed, reported]⟩
              | false =>
                  rcases List.mem_cons.mp member with rfl | later
                  · simp [failed] at firstFailed
                  · simpa [deliver, firstFailed] using rest later
          | ok fault =>
              rcases List.mem_cons.mp member with rfl | later
              · exact absurd (Fault.ofErrorObject_eq_ok_iff.mp ⟨fault, reported⟩) unreportable
              · cases firstFailed : first.isError <;>
                  simpa [deliver, firstFailed, reported] using ih restLength later

theorem map_fst_failAll {failure : Failure} :
    (failAll requests failure).map Prod.fst = requests.map Prod.fst := by
  simp [failAll, Function.comp_def]

theorem map_fst_zip_of_length {α β γ : Type} {pairs : List (α × β)} {others : List γ}
    (length : others.length = pairs.length) :
    (pairs.zip others).map (fun pair => pair.1.1) = pairs.map Prod.fst := by
  have zipped : (pairs.zip others).map Prod.fst = pairs :=
    List.map_fst_zip (Nat.le_of_eq length.symm)
  calc (pairs.zip others).map (fun pair => pair.1.1)
      = ((pairs.zip others).map Prod.fst).map Prod.fst := by simp
    _ = pairs.map Prod.fst := by rw [zipped]

theorem desync?_of_hidden {requests : List RpcRequest}
    (length : responses.length = requests.length) {request : RpcRequest} {response : RpcResponse}
    (first : (requests.zip responses).find? (fun pair => !echoes pair.1 pair.2) =
      some (request, response)) (hidden : response.id.isShowable = false) :
    desync? requests responses = Outcome.condition .badValue := by
  simp only [desync?, length, ne_eq, not_true_eq_false, if_false]
  rw [first]
  simp [Value.rendered, hidden, Outcome.condition]

theorem desync?_eq_error {requests : List RpcRequest} {failure : Failure}
    (raised : desync? requests responses = .error failure) :
    responses.length = requests.length ∧
      ∃ (request : RpcRequest) (response : RpcResponse),
        (requests.zip responses).find? (fun pair => !echoes pair.1 pair.2) =
          some (request, response) ∧ response.id.isShowable = false := by
  by_cases length : responses.length = requests.length
  · simp only [desync?, length, ne_eq, not_true_eq_false, if_false] at raised
    split at raised
    · simp at raised
    · next request response first =>
        refine ⟨length, request, response, first, ?_⟩
        cases showable : response.id.isShowable with
        | false => rfl
        | true => simp [Value.rendered, showable] at raised
  · simp [desync?, length] at raised

/-- A reply that belongs to a batch gives each handle its own reply. -/
theorem conclude_of_correlates (correlates : Correlates (requests.map Prod.snd) responses)
    (reportable : ∀ response ∈ responses, response.isError = true → response.error.IsReportable) :
    conclude requests (.ok responses) =
      ((requests.zip responses).map fun pair => (pair.1.1, ownReply pair.1.2 pair.2),
        .ok requests.length) := by
  rw [conclude]
  simp only [desync?_eq_ok_none_iff.mpr correlates, deliver_of_reportable reportable]
  rfl

/-- Unless the reply derails the flush, there is something for every handle, and only an
interruption is raised. -/
theorem conclude_of_not_derails (fine : ¬Derails requests reply) :
    (conclude requests reply).1.map Prod.fst = requests.map Prod.fst ∧
      ∀ failure, (conclude requests reply).2 = .error failure →
        reply = .error failure ∧ failure.isOrdinary = false := by
  cases reply with
  | error failure =>
      cases ordinary : failure.isOrdinary with
      | true => simp [conclude, ordinary, map_fst_failAll]
      | false => simp [conclude, ordinary, map_fst_failAll]
  | ok responses =>
      cases checked : desync? (requests.map Prod.snd) responses with
      | error failure =>
          rcases desync?_eq_error checked with ⟨length, request, response, first, hidden⟩
          exact absurd (.number (by simpa using length) first hidden) fine
      | ok desync =>
          cases desync with
          | some fault => simp [conclude, checked, map_fst_failAll]
          | none =>
              have correlates := desync?_eq_ok_none_iff.mp checked
              have length : responses.length = requests.length := by simpa using correlates.1
              have reportable : ∀ response ∈ responses, response.isError = true →
                  response.error.IsReportable := by
                intro response member failed
                by_contra unreportable
                exact fine (.error correlates member failed unreportable)
              rw [conclude_of_correlates correlates reportable, List.map_map]
              exact ⟨map_fst_zip_of_length length, by simp⟩

/-- A reply that derails the flush makes it raise something that is no interruption. -/
theorem conclude_of_derails (derails : Derails requests reply) :
    ∃ responses failure, reply = .ok responses ∧ (conclude requests reply).2 = .error failure := by
  cases derails with
  | @number responses request response length first hidden =>
      have raised := desync?_of_hidden (by simpa using length) first hidden
      exact ⟨responses, .condition .badValue "", rfl,
        by simp [conclude, raised, Outcome.condition]⟩
  | @error responses response correlates member failed unreportable =>
      have length : responses.length = requests.length := by simpa using correlates.1
      rcases deliver_of_unreportable length member failed unreportable with ⟨failure, stopped⟩
      have checked := desync?_eq_ok_none_iff.mpr correlates
      exact ⟨responses, failure, rfl, by simp [conclude, checked, stopped, Except.map]⟩

end Conclusions

theorem fst_mem_of_mem_deliver {requests : List SentRequest} {responses : List RpcResponse}
    {resolution : Nat × Outcome Value} (member : resolution ∈ (deliver requests responses).1) :
    resolution.1 ∈ requests.map Prod.fst := by
  induction requests generalizing responses with
  | nil => simp [deliver] at member
  | cons sent requests ih =>
      rcases sent with ⟨handle, request⟩
      cases responses with
      | nil => simp [deliver] at member
      | cons response responses =>
          rw [List.map_cons, List.mem_cons]
          simp only [deliver] at member
          split at member
          · split at member
            · rcases List.mem_cons.mp member with rfl | later
              · exact Or.inl rfl
              · exact Or.inr (ih later)
            · simp at member
          · rcases List.mem_cons.mp member with rfl | later
            · exact Or.inl rfl
            · exact Or.inr (ih later)

/-- A flush resolves no other handles than those of its own requests. -/
theorem fst_mem_of_mem_conclude {requests : List SentRequest}
    {reply : Outcome (List RpcResponse)} {handle : Nat}
    (member : handle ∈ (conclude requests reply).1.map Prod.fst) :
    handle ∈ requests.map Prod.fst := by
  cases reply with
  | error failure =>
      cases ordinary : failure.isOrdinary <;>
        simpa [conclude, ordinary, map_fst_failAll] using member
  | ok responses =>
      cases checked : desync? (requests.map Prod.snd) responses with
      | error failure => simp [conclude, checked] at member
      | ok desync =>
          cases desync with
          | some fault => simpa [conclude, checked, map_fst_failAll] using member
          | none =>
              simp only [conclude, checked, List.mem_map] at member
              rcases member with ⟨resolution, member, rfl⟩
              exact fst_mem_of_mem_deliver member

namespace History

variable {history : History}

/-- Failed slots are resolved from the start; requests that were not sent yet, or have no reply yet,
wait. -/
structure Settled (history : History) : Prop where
  failed : ∀ handle ∈ history.failed,
    ∃ outcome, history.batch.handles[handle]? = some (.resolved outcome)
  pending : ∀ sent ∈ sentRequests history.batch.pending,
    history.batch.handles[sent.1]? = some .waiting
  awaiting : ∀ flush ∈ history.flushes, flush.reply = none → ∀ sent ∈ flush.requests,
    history.batch.handles[sent.1]? = some .waiting

theorem Slotted.place_of_flush {number : Nat} {flush : Flush}
    (found : history.flushes[number]? = some flush) :
    history.places[number + 1]? = some flush.slots := by
  have bound := (List.getElem?_eq_some_iff.mp found).1
  rw [places, List.getElem?_cons_succ, List.getElem?_append_left (by simpa using bound)]
  simp [found]

/-- Different places hold different requests. -/
theorem Slotted.handle_notMem (slotted : Slotted history) {first second : Nat}
    {left right : List BatchSlot} (atFirst : history.places[first]? = some left)
    (atSecond : history.places[second]? = some right) (differ : first ≠ second)
    {sent : SentRequest} (member : sent ∈ sentRequests left) :
    sent.1 ∉ right.map BatchSlot.handle := by
  intro inRight
  rcases mem_sentRequests_iff.mp member with ⟨slot, inLeft, handle, _⟩
  rcases List.mem_map.mp inRight with ⟨other, inOther, otherHandle⟩
  exact differ (eq_of_key_eq slotted.distinct_places atFirst atSecond inLeft inOther
    (handle.trans otherHandle.symm))

namespace Settled

/-- Resolutions of other handles leave what waits as it is. -/
theorem resolve (settled : Settled history) {resolutions : Resolutions} {later : History}
    (batch : later.batch.handles = (history.batch.resolve resolutions).handles)
    (failed : later.failed = history.failed)
    (pending : ∀ sent ∈ sentRequests later.batch.pending,
      sent ∈ sentRequests history.batch.pending ∧ sent.1 ∉ resolutions.map Prod.fst)
    (awaiting : ∀ flush ∈ later.flushes, flush.reply = none →
      flush ∈ history.flushes ∧ ∀ sent ∈ flush.requests, sent.1 ∉ resolutions.map Prod.fst) :
    Settled later where
  failed := by
    intro handle member
    rw [failed] at member
    rcases settled.failed handle member with ⟨outcome, resolved⟩
    rw [batch]
    exact ⟨outcome, getElem?_resolve_of_resolved resolved⟩
  pending := by
    intro sent member
    rcases pending sent member with ⟨before, absent⟩
    rw [batch, getElem?_resolve_of_notMem absent]
    exact settled.pending sent before
  awaiting := by
    intro flush member noReply sent sentHere
    rcases awaiting flush member noReply with ⟨before, absent⟩
    rw [batch, getElem?_resolve_of_notMem (absent sent sentHere)]
    exact settled.awaiting flush before noReply sent sentHere

theorem discard (settled : Settled history) (slotted : Slotted history) :
    Settled (history.perform .discard) := by
  refine settled.resolve rfl rfl (by simp [perform, Batch.discard, sentRequests]) ?_
  intro flush member noReply
  refine ⟨member, ?_⟩
  intro sent sentHere
  rcases List.mem_iff_getElem?.mp member with ⟨number, found⟩
  rw [slotted.requests flush member] at sentHere
  have absent := slotted.handle_notMem (Slotted.place_of_flush found)
    (List.getElem?_cons_zero) (Nat.succ_ne_zero number) sentHere
  simpa [Function.comp_def] using absent

theorem endFlush (settled : Settled history) (slotted : Slotted history) (number : Nat)
    (reply : Outcome (List RpcResponse)) :
    Settled (history.perform (.endFlush number reply)) := by
  rcases perform_endFlush history number reply with same | ⟨flush, found, _, ended⟩
  · rwa [same]
  · have inSlots : ∀ handle, handle ∈ (conclude flush.requests reply).1.map Prod.fst →
        handle ∈ flush.slots.map BatchSlot.handle := by
      intro handle member
      have sent := fst_mem_of_mem_conclude member
      rw [slotted.requests flush (List.mem_of_getElem? found)] at sent
      exact map_fst_sentRequests_sublist.subset sent
    have place := Slotted.place_of_flush found
    rw [ended]
    refine settled.resolve rfl rfl ?_ ?_
    · intro sent member
      refine ⟨member, ?_⟩
      intro resolved
      exact slotted.handle_notMem List.getElem?_cons_zero place (Nat.zero_ne_add_one number)
        member (inSlots sent.1 resolved)
    · -- no slot of another flush is resolved, because a slot is in one place only
      intro other member noReply
      rcases List.mem_iff_getElem?.mp member with ⟨position, atPosition⟩
      by_cases same : number = position
      · subst same
        have bound := (List.getElem?_eq_some_iff.mp found).1
        rw [List.getElem?_set_self bound, Option.some.injEq] at atPosition
        subst atPosition
        cases noReply
      · rw [List.getElem?_set_ne same] at atPosition
        have before := List.mem_of_getElem? atPosition
        refine ⟨before, ?_⟩
        intro sent sentHere resolved
        rw [slotted.requests other before] at sentHere
        exact slotted.handle_notMem (Slotted.place_of_flush atPosition) place
          (by omega) sentHere (inSlots sent.1 resolved)

theorem perform (settled : Settled history) (slotted : Slotted history) (action : Action) :
    Settled (history.perform action) := by
  cases action with
  | enqueue method params =>
      rw [perform_enqueue]
      constructor
      · intro handle member
        rcases settled.failed handle member with ⟨outcome, resolved⟩
        exact ⟨outcome, getElem?_append_of_some resolved⟩
      · intro sent member
        rw [sentRequests_append, List.mem_append] at member
        rcases member with earlier | last
        · exact getElem?_append_of_some (settled.pending sent earlier)
        · rw [List.mem_singleton.mp last]
          exact List.getElem?_concat_length
      · intro flush member noReply sent sentHere
        exact getElem?_append_of_some (settled.awaiting flush member noReply sent sentHere)
  | enqueueFailed failure =>
      rw [perform_enqueueFailed]
      constructor
      · intro handle member
        rcases List.mem_append.mp member with earlier | last
        · rcases settled.failed handle earlier with ⟨outcome, resolved⟩
          exact ⟨outcome, getElem?_append_of_some resolved⟩
        · rw [List.mem_singleton.mp last]
          exact ⟨.error failure, List.getElem?_concat_length⟩
      · intro sent member
        rw [sentRequests_append, List.mem_append] at member
        rcases member with earlier | last
        · exact getElem?_append_of_some (settled.pending sent earlier)
        · cases last
      · intro flush member noReply sent sentHere
        exact getElem?_append_of_some (settled.awaiting flush member noReply sent sentHere)
  | discard => exact settled.discard slotted
  | beginFlush =>
      refine ⟨settled.failed, fun sent member => absurd member List.not_mem_nil, ?_⟩
      intro flush member noReply sent sentHere
      rcases List.mem_append.mp member with earlier | new
      · exact settled.awaiting flush earlier noReply sent sentHere
      · rw [List.mem_singleton.mp new] at sentHere
        exact settled.pending sent sentHere
  | endFlush number reply => exact settled.endFlush slotted number reply

theorem run (actions : List Action) : Settled (run actions) := by
  have both : Slotted (History.run actions) ∧ Settled (History.run actions) := by
    refine run_induction (P := fun history => Slotted history ∧ Settled history) ?_ ?_ actions
    · exact ⟨Slotted.run [], by constructor <;> simp [sentRequests]⟩
    · intro history action invariants
      rcases invariants with ⟨slotted, settled⟩
      exact ⟨slotted.perform action, settled.perform slotted action⟩
  exact both.2

end Settled

/-- A flush delivers: afterwards every handle that it took is resolved, it raises nothing but an
interruption, and if the reply belongs to the batch, every handle has got its own reply. -/
structure Delivers (history : History) (number : Nat) (flush : Flush)
    (reply : Outcome (List RpcResponse)) : Prop where
  resolved : ∀ slot ∈ flush.slots, ∃ outcome,
    (history.perform (.endFlush number reply)).batch.handles[slot.handle]? =
      some (.resolved outcome)
  raised : ∀ failure, flush.ending reply = .error failure →
    reply = .error failure ∧ failure.isOrdinary = false
  own : ∀ responses, reply = .ok responses → Correlates (flush.requests.map Prod.snd) responses →
    ∀ sent response, (sent, response) ∈ flush.requests.zip responses →
      (history.perform (.endFlush number reply)).batch.handles[sent.1]? =
        some (.resolved (ownReply sent.2 response))

section Deliveries

variable {actions : List Action} {number : Nat} {flush : Flush}
  {reply : Outcome (List RpcResponse)}

theorem resolutions_nil : (conclude [] reply).1 = [] := by
  apply List.eq_nil_iff_forall_not_mem.mpr
  intro resolution member
  have sent := fst_mem_of_mem_conclude (List.mem_map_of_mem (f := Prod.fst) member)
  exact List.not_mem_nil sent

theorem perform_endFlush_of_awaiting (found : history.flushes[number]? = some flush)
    (awaiting : flush.reply = none) :
    (history.perform (.endFlush number reply)).batch =
      history.batch.resolve (conclude flush.requests reply).1 := by
  cases empty : flush.requests.isEmpty with
  | true =>
      have nothing := List.isEmpty_iff.mp empty
      rw [nothing, resolutions_nil]
      simp [History.perform, found, Flush.isOpen, empty, Batch.resolve]
  | false =>
      have isOpen : flush.isOpen = true := by simp [Flush.isOpen, awaiting, empty]
      simp [History.perform, found, isOpen]

theorem Slotted.added_of_mem (slotted : Slotted history)
    (found : history.flushes[number]? = some flush) {slot : BatchSlot}
    (member : slot ∈ flush.slots) : slot ∈ history.added := by
  have place := List.mem_of_getElem? (Slotted.place_of_flush found)
  exact (slotted.ordered flush.slots place).subset member

theorem Slotted.lt_length (slotted : Slotted history) {slot : BatchSlot}
    (added : slot ∈ history.added) : slot.handle < history.batch.handles.length := by
  have inRange := List.mem_map_of_mem (f := BatchSlot.handle) added
  rw [slotted.handles] at inRange
  exact List.mem_range.mp inRange

theorem Slotted.distinct_requests (slotted : Slotted history) (member : flush ∈ history.flushes) :
    (flush.requests.map Prod.fst).Nodup :=
  (List.nodup_flatMap.mp slotted.sentOnce).1 flush member

/-- If there is something for every request of a flush, all slots that it took are resolved. -/
theorem resolved_of_everyHandle (slotted : Slotted history) (settled : Settled history)
    (found : history.flushes[number]? = some flush) {resolutions : Resolutions}
    (everyHandle : resolutions.map Prod.fst = flush.requests.map Prod.fst) {slot : BatchSlot}
    (member : slot ∈ flush.slots) :
    ∃ outcome, (history.batch.resolve resolutions).handles[slot.handle]? =
      some (.resolved outcome) := by
  have added := slotted.added_of_mem found member
  cases request : slot.request with
  | none =>
      have failedBefore : slot.handle ∈ history.failed := by
        rw [slotted.failed]
        exact List.mem_map_of_mem (List.mem_filter.mpr ⟨added, by simp [request]⟩)
      rcases settled.failed slot.handle failedBefore with ⟨outcome, resolved⟩
      exact ⟨outcome, getElem?_resolve_of_resolved resolved⟩
  | some request' =>
      apply isResolved_of_mem (slotted.lt_length added)
      rw [everyHandle, slotted.requests flush (List.mem_of_getElem? found)]
      exact List.mem_map.mpr
        ⟨(slot.handle, request'), mem_sentRequests_iff.mpr ⟨slot, member, rfl, request⟩, rfl⟩

/-- A flush delivers exactly if the reply does not derail it. -/
theorem delivers_iff (found : (run actions).flushes[number]? = some flush)
    (awaiting : flush.reply = none) :
    Delivers (run actions) number flush reply ↔ ¬Derails flush.requests reply := by
  have slotted := Slotted.run actions
  have settled := Settled.run actions
  have member := List.mem_of_getElem? found
  have batch : ((run actions).perform (.endFlush number reply)).batch =
      (run actions).batch.resolve (conclude flush.requests reply).1 :=
    perform_endFlush_of_awaiting found awaiting
  constructor
  · intro delivers derails
    rcases conclude_of_derails derails with ⟨responses, failure, rfl, stopped⟩
    have sends : flush.requests.isEmpty = false := by
      rw [List.isEmpty_eq_false_iff]
      intro empty
      rw [empty] at stopped
      cases responses with
      | nil => simp [conclude, desync?, deliver, Except.map] at stopped
      | cons response responses => simp [conclude, desync?] at stopped
    have ended : flush.ending (.ok responses) = .error failure := by
      rw [Flush.ending, sends]
      exact stopped
    exact absurd (delivers.raised failure ended).1 (by simp)
  · intro fine
    rcases conclude_of_not_derails fine with ⟨everyHandle, interruption⟩
    refine ⟨?_, ?_, ?_⟩
    · intro slot inSlots
      rw [batch]
      exact resolved_of_everyHandle slotted settled found everyHandle inSlots
    · intro failure ended
      rw [Flush.ending] at ended
      split at ended
      · cases ended
      · exact interruption failure ended
    · rintro responses rfl correlates sent response inReply
      have reportable : ∀ response ∈ responses, response.isError = true →
          response.error.IsReportable := by
        intro other inResponses failed
        by_contra unreportable
        exact fine (.error correlates inResponses failed unreportable)
      have sentHere : sent ∈ flush.requests := (List.of_mem_zip inReply).1
      have waiting := settled.awaiting flush member awaiting sent sentHere
      rw [batch]
      apply getElem?_resolve_of_mem waiting
      · rw [everyHandle]
        exact slotted.distinct_requests member
      · rw [conclude_of_correlates correlates reportable]
        exact List.mem_map.mpr ⟨(sent, response), inReply, rfl⟩

end Deliveries

section Examples

/-- Two requests that were sent, with a slot between them that had failed before. -/
def twoSent : List Action :=
  [.enqueue "eth_chainId" [], .enqueueFailed .cancelled, .enqueue "eth_blockNumber" [],
    .beginFlush]

/-- The flush of two requests. -/
def twoSentFlush : Flush where
  slots := [⟨0, some ⟨1, "eth_chainId", []⟩⟩, ⟨1, none⟩, ⟨2, some ⟨2, "eth_blockNumber", []⟩⟩]
  requests := [(0, ⟨1, "eth_chainId", []⟩), (2, ⟨2, "eth_blockNumber", []⟩)]

theorem delivers_iff_nodeError :
    let reply := .ok [{ error := .dict [("code", .int (-32000))] }, { result := .text "0x10" }]
    (run twoSent).flushes[0]? = some twoSentFlush ∧ twoSentFlush.reply = none ∧
      (Delivers (run twoSent) 0 twoSentFlush reply ↔ ¬Derails twoSentFlush.requests reply) :=
  ⟨rfl, rfl, delivers_iff rfl rfl⟩

/-- An error that is a text stops the delivery, and what it was met by is raised. -/
theorem not_delivers_textError :
    ¬∀ (actions : List Action) (number : Nat) (flush : Flush)
        (reply : Outcome (List RpcResponse)),
      (run actions).flushes[number]? = some flush → flush.reply = none →
        Delivers (run actions) number flush reply := by
  intro always
  have delivers := always twoSent 0 twoSentFlush
    (.ok [{ id := .int 1, error := .text "boom" }, { id := .int 2, result := .text "0x10" }])
    rfl rfl
  have raised := delivers.raised (.condition .missingMember "") rfl
  exact absurd raised.1 (by simp)

end Examples

end History

end Batch

end ContractClient
