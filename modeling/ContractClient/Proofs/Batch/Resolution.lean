import ContractClient.Contract.Batch
import ContractClient.Proofs.Outcome

/-!
# Resolving handles

`Batch.resolve` settles what waits and nothing else: a handle that is resolved stays as it is
(`Batch.getElem?_resolve_of_resolved`), and a handle that becomes resolved is so by one of the
resolutions (`Batch.mem_of_getElem?_resolve`).

The second half says where the resolutions of a flush come from. A value is delivered to a handle
only from the response at its own position, in a reply that belongs to the requests
(`Batch.answers_of_mem_conclude`).
-/

namespace ContractClient

namespace Batch

section Resolve

variable {batch : Batch} {resolutions : Resolutions} {handle : Nat} {outcome : Outcome Value}

theorem resolve_cons :
    batch.resolve ((handle, outcome) :: resolutions) =
      ({ batch with
          handles := batch.handles.modify handle (HandleState.resolve outcome) } : Batch).resolve
        resolutions :=
  rfl

@[simp]
theorem pending_resolve : (batch.resolve resolutions).pending = batch.pending :=
  rfl

@[simp]
theorem nextId_resolve : (batch.resolve resolutions).nextId = batch.nextId :=
  rfl

@[simp]
theorem length_handles_resolve :
    (batch.resolve resolutions).handles.length = batch.handles.length := by
  induction resolutions generalizing batch with
  | nil => rfl
  | cons resolution resolutions ih =>
      rcases resolution with ⟨handle, outcome⟩
      rw [resolve_cons, ih, List.length_modify]

/-- What a handle is resolved by never changes. -/
theorem getElem?_resolve_of_resolved
    (resolved : batch.handles[handle]? = some (.resolved outcome)) :
    (batch.resolve resolutions).handles[handle]? = some (.resolved outcome) := by
  induction resolutions generalizing batch with
  | nil => exact resolved
  | cons resolution resolutions ih =>
      rcases resolution with ⟨other, later⟩
      rw [resolve_cons]
      apply ih
      rw [List.getElem?_modify, resolved]
      by_cases same : other = handle <;> simp [same, HandleState.resolve]

theorem getElem?_resolve_of_notMem (absent : handle ∉ resolutions.map Prod.fst) :
    (batch.resolve resolutions).handles[handle]? = batch.handles[handle]? := by
  induction resolutions generalizing batch with
  | nil => rfl
  | cons resolution resolutions ih =>
      rcases resolution with ⟨other, outcome⟩
      simp only [List.map_cons, List.mem_cons, not_or] at absent
      rcases absent with ⟨otherHandle, absent⟩
      rw [resolve_cons, ih absent, List.getElem?_modify]
      simp [Ne.symm otherHandle]

/-- A handle becomes resolved only by one of the resolutions. -/
theorem mem_of_getElem?_resolve
    (resolved : (batch.resolve resolutions).handles[handle]? = some (.resolved outcome)) :
    batch.handles[handle]? = some (.resolved outcome) ∨ (handle, outcome) ∈ resolutions := by
  induction resolutions generalizing batch with
  | nil => exact Or.inl resolved
  | cons resolution resolutions ih =>
      rcases resolution with ⟨other, earlier⟩
      rw [resolve_cons] at resolved
      rcases ih resolved with before | later
      · rw [List.getElem?_modify] at before
        by_cases same : other = handle
        · subst same
          cases known : batch.handles[other]? with
          | none => simp [known] at before
          | some state =>
              cases state with
              | waiting =>
                  have settled : earlier = outcome := by
                    simpa [known, HandleState.resolve] using before
                  exact Or.inr (by simp [settled])
              | resolved first =>
                  have kept : first = outcome := by
                    simpa [known, HandleState.resolve] using before
                  exact Or.inl (by rw [kept])
        · exact Or.inl (by simpa [same] using before)
      · exact Or.inr (List.mem_cons_of_mem _ later)

/-- A handle that waits is resolved by what there is for it. -/
theorem getElem?_resolve_of_mem (waiting : batch.handles[handle]? = some .waiting)
    (distinct : (resolutions.map Prod.fst).Nodup) (member : (handle, outcome) ∈ resolutions) :
    (batch.resolve resolutions).handles[handle]? = some (.resolved outcome) := by
  induction resolutions generalizing batch with
  | nil => exact absurd member (by simp)
  | cons resolution resolutions ih =>
      rcases resolution with ⟨other, earlier⟩
      rw [List.map_cons, List.nodup_cons] at distinct
      rw [resolve_cons]
      rcases List.mem_cons.mp member with first | later
      · cases first
        apply getElem?_resolve_of_resolved
        rw [List.getElem?_modify, waiting]
        simp [HandleState.resolve]
      · have differs : other ≠ handle := by
          intro same
          exact distinct.1 (List.mem_map.mpr ⟨_, later, same.symm⟩)
        apply ih _ distinct.2 later
        rw [List.getElem?_modify, waiting]
        simp [differs]

/-- A handle for which there is something is resolved afterwards. -/
theorem isResolved_of_mem (known : handle < batch.handles.length)
    (member : handle ∈ resolutions.map Prod.fst) :
    ∃ outcome, (batch.resolve resolutions).handles[handle]? = some (.resolved outcome) := by
  induction resolutions generalizing batch with
  | nil => exact absurd member (by simp)
  | cons resolution resolutions ih =>
      rcases resolution with ⟨other, earlier⟩
      rw [resolve_cons]
      by_cases same : other = handle
      · subst same
        cases state : batch.handles[other] with
        | waiting =>
            refine ⟨earlier, getElem?_resolve_of_resolved ?_⟩
            simp [List.getElem?_eq_getElem known, state, HandleState.resolve]
        | resolved first =>
            refine ⟨first, getElem?_resolve_of_resolved ?_⟩
            simp [List.getElem?_eq_getElem known, state, HandleState.resolve]
      · simp only [List.map_cons, List.mem_cons, Ne.symm same, false_or] at member
        exact ih (by simpa using known) member

end Resolve

section Replies

variable {requests : List SentRequest} {responses : List RpcResponse}
  {reply : Outcome (List RpcResponse)} {handle : Nat} {value : Value}

/-- A reply belongs to the requests that were sent: there is one response for each, and at each
position the response carries the number of the request or none. -/
def Correlates (requests : List RpcRequest) (responses : List RpcResponse) : Prop :=
  responses.length = requests.length ∧
    ∀ request response, (request, response) ∈ requests.zip responses →
      echoes request response = true

/-- A reply has a result for a handle: it belongs to the requests, and the response at the position
of the handle's own request carries the result. -/
def Answers (requests : List SentRequest) (responses : List RpcResponse) (handle : Nat)
    (value : Value) : Prop :=
  Correlates (requests.map Prod.snd) responses ∧
    ∃ (position : Nat) (request : RpcRequest) (response : RpcResponse),
      requests[position]? = some (handle, request) ∧ responses[position]? = some response ∧
        response.isError = false ∧ response.result = value

theorem desync?_eq_ok_none_iff {requests : List RpcRequest} :
    desync? requests responses = .ok none ↔ Correlates requests responses := by
  rw [desync?, Correlates]
  by_cases sameLength : responses.length = requests.length
  · simp only [sameLength, ne_eq, not_true_eq_false, if_false, true_and]
    split
    · next found =>
        simp only [Outcome.pure_eq_ok, true_iff]
        intro request response member
        simpa using List.find?_eq_none.mp found (request, response) member
    · next request response found =>
        have differs : echoes request response = false := by simpa using List.find?_some found
        have member := List.mem_of_find?_eq_some found
        constructor
        · intro ended
          rcases Outcome.bind_eq_ok_iff.mp ended with ⟨_, _, impossible⟩
          simp at impossible
        · intro all
          simp [all request response member] at differs
  · simp [sameLength]

/-- Values are delivered by position. -/
theorem mem_zip_of_mem_deliver (delivered : (handle, .ok value) ∈ (deliver requests responses).1) :
    ∃ request response, ((handle, request), response) ∈ requests.zip responses ∧
      response.isError = false ∧ response.result = value := by
  induction requests generalizing responses with
  | nil => simp [deliver] at delivered
  | cons sent requests ih =>
      rcases sent with ⟨first, request⟩
      cases responses with
      | nil => simp [deliver] at delivered
      | cons response responses =>
          have fromRest : (handle, .ok value) ∈ (deliver requests responses).1 →
              ∃ (other : RpcRequest) (reply : RpcResponse),
                ((handle, other), reply) ∈
                    ((first, request) :: requests).zip (response :: responses) ∧
                  reply.isError = false ∧ reply.result = value := by
            intro member
            rcases ih member with ⟨other, reply, member, fine, result⟩
            exact ⟨other, reply, List.mem_cons_of_mem _ member, fine, result⟩
          cases reported : response.isError with
          | false =>
              simp only [deliver, reported, Bool.false_eq_true, if_false, List.mem_cons]
                at delivered
              rcases delivered with here | later
              · cases here
                exact ⟨request, response, List.mem_cons_self, reported, rfl⟩
              · exact fromRest later
          | true =>
              simp only [deliver, reported, if_true] at delivered
              split at delivered
              · rcases List.mem_cons.mp delivered with here | later
                · cases here
                · exact fromRest later
              · simp at delivered

theorem notMem_failAll_ok {failure : Failure} : (handle, .ok value) ∉ failAll requests failure := by
  simp [failAll]

/-- A flush resolves a handle by a value only if the reply has this result for it. -/
theorem answers_of_mem_conclude (resolved : (handle, .ok value) ∈ (conclude requests reply).1) :
    ∃ responses, reply = .ok responses ∧ Answers requests responses handle value := by
  cases reply with
  | error failure =>
      rw [conclude] at resolved
      split at resolved
      · exact absurd resolved notMem_failAll_ok
      · exact absurd resolved notMem_failAll_ok
  | ok responses =>
      rw [conclude] at resolved
      cases checked : desync? (requests.map Prod.snd) responses with
      | error failure => simp [checked] at resolved
      | ok desync =>
          cases desync with
          | some fault =>
              simp only [checked] at resolved
              exact absurd resolved notMem_failAll_ok
          | none =>
              simp only [checked] at resolved
              rcases mem_zip_of_mem_deliver resolved with
                ⟨request, response, member, fine, result⟩
              rcases List.mem_iff_getElem?.mp member with ⟨position, found⟩
              rcases List.getElem?_zip_eq_some.mp found with ⟨sentHere, receivedHere⟩
              exact ⟨responses, rfl, desync?_eq_ok_none_iff.mp checked, position, request,
                response, sentHere, receivedHere, fine, result⟩

end Replies

end Batch

end ContractClient
