import ContractClient.Proofs.Batch.Delivery
import ContractClient.Rpc.Provider

/-!
# Answers of a provider

A provider that executes every request answers with an object for each (`Provider.Serves`). The
objects become the responses of a batch (`Provider.Hears`), one request at a time or all together
(`Provider.sendBatch_inv`): a response says what the object says (`Provider.Conveys`), and keeps the
number that the provider gave it (`Provider.Numbers`).
-/

namespace ContractClient

/-- What a provider is asked for a request: the number of the request is not part of it. -/
def RpcRequest.question (request : RpcRequest) : String × List Value :=
  (request.method, request.params)

namespace Provider

/-- A provider answers with an object for every request that it is asked to execute, one request at
a time or all in order. The list says for which request it replied what. -/
inductive Serves : List Label → List ((String × List Value) × Dict) → Prop where
  | nil : Serves [] []
  | told {now : Rat} {event : Event} {labels : List Label}
      {replies : List ((String × List Value) × Dict)} (rest : Serves labels replies) :
      Serves (.told now event :: labels) replies
  | one {method : String} {params : List Value} {reply : Dict} {start stop : Rat}
      {labels : List Label} {replies : List ((String × List Value) × Dict)}
      (rest : Serves labels replies) :
      Serves (.asked (.provide method params) start stop (.answer (.ok (.dict reply))) :: labels)
        (((method, params), reply) :: replies)
  | together {questions : List (String × List Value)} {objects : List Dict} {start stop : Rat}
      {labels : List Label} {replies : List ((String × List Value) × Dict)}
      (length : objects.length = questions.length) (rest : Serves labels replies) :
      Serves
        (.asked (.provideBatch questions) start stop (.answer (.ok (.list (objects.map .dict)))) ::
          labels)
        (questions.zip objects ++ replies)

theorem Serves.append_inv {before after : List Label}
    {replies : List ((String × List Value) × Dict)} (serves : Serves (before ++ after) replies) :
    ∃ early late, Serves before early ∧ Serves after late ∧ replies = early ++ late := by
  induction before generalizing replies with
  | nil => exact ⟨[], replies, .nil, serves, rfl⟩
  | cons label before ih =>
      cases serves with
      | told rest =>
          rcases ih rest with ⟨early, late, first, second, rfl⟩
          exact ⟨early, late, .told first, second, rfl⟩
      | one rest =>
          rcases ih rest with ⟨early, late, first, second, rfl⟩
          exact ⟨_, late, .one first, second, rfl⟩
      | together length rest =>
          rcases ih rest with ⟨early, late, first, second, rfl⟩
          exact ⟨_, late, .together length first, second, (List.append_assoc _ _ _).symm⟩

theorem Serves.append_told {labels notes : List Label}
    {replies : List ((String × List Value) × Dict)} (serves : Serves labels replies)
    (told : ∀ label ∈ notes, label.IsTold) : Serves (labels ++ notes) replies := by
  induction serves with
  | nil =>
      induction notes with
      | nil => exact .nil
      | cons note notes ih =>
          rcases List.forall_mem_cons.mp told with ⟨⟨now, event, rfl⟩, later⟩
          exact .told (ih later)
  | told rest ih => exact .told ih
  | one rest ih => exact .one ih
  | together length rest ih => exact .together length ih

theorem Serves.eq_nil {labels : List Label} {replies : List ((String × List Value) × Dict)}
    (serves : Serves labels replies) (told : ∀ label ∈ labels, label.IsTold) :
    replies = [] := by
  induction serves with
  | nil => rfl
  | told rest ih => exact ih fun label member => told label (List.mem_cons_of_mem _ member)
  | one rest ih =>
      rcases told _ List.mem_cons_self with ⟨_, _, same⟩
      cases same
  | together length rest ih =>
      rcases told _ List.mem_cons_self with ⟨_, _, same⟩
      cases same

/-- What a reply says about a request: the error that it reports, or else the result. An error that
is no object is the message of one. -/
inductive Conveys (request : RpcRequest) (reply : Dict) : Outcome Value → Prop where
  | result (fine : Value.ofOption (Dict.get? reply "error") = .null) :
      Conveys request reply (.ok (Value.ofOption (Dict.get? reply "result")))
  | error {entries : Dict} {message : String}
      (reported : Dict.get? reply "error" = some (.dict entries))
      (shown : ((Dict.get? entries "message").getD (.text "unknown RPC error")).displayed =
        .ok message) :
      Conveys request reply
        (Outcome.fault (.rpc message .rpc request.method (some (.list request.params))
          ((Dict.get? entries "code").getD .null) ((Dict.get? entries "data").getD .null)))
  | message {error : Value} {message : String} (reported : Dict.get? reply "error" = some error)
      (present : error ≠ .null) (plain : ∀ entries, error ≠ .dict entries)
      (shown : error.displayed = .ok message) :
      Conveys request reply
        (Outcome.fault (.rpc message .rpc request.method (some (.list request.params))))

/-- A reply carries the number of a request, or none. -/
def Numbers (request : RpcRequest) (reply : Dict) : Prop :=
  ∀ id, Dict.get? reply "id" = some id → id = .null ∨ id.equalsInt request.id = true

/-- A reply can be delivered for a request: it carries the number of the request or none, and says
something that can be shown. -/
structure Fits (request : RpcRequest) (reply : Dict) : Prop where
  numbers : Numbers request reply
  conveys : ∃ outcome, Conveys request reply outcome

/-- A response that a reply stands for: it belongs to the request if the reply does, and says the
same. -/
structure Reads (request : RpcRequest) (reply : Dict) (response : RpcResponse) : Prop where
  echoes : Batch.echoes request response = true ↔ Numbers request reply
  own : Conveys request reply (Batch.ownReply request response)
  reportable : response.isError = true → response.error.IsReportable

theorem numbers_iff {request : RpcRequest} {reply : Dict} {default : Value} {response : RpcResponse}
    (id : response.id = (Dict.get? reply "id").getD default)
    (number : default = .null ∨ default = .int request.id) :
    Batch.echoes request response = true ↔ Numbers request reply := by
  rw [Batch.echoes, id, Numbers]
  cases found : Dict.get? reply "id" with
  | none => rcases number with rfl | rfl <;> simp [Value.equalsInt]
  | some other => cases other <;> simp [Value.equalsInt]

theorem responseOf_dict {reply : Dict} {error : Value} (method : String) (default : Value)
    (found : errorOf (Value.ofOption (Dict.get? reply "error")) = .ok error) :
    responseOf (.dict reply) method default =
      .ok ⟨(Dict.get? reply "id").getD default, Value.ofOption (Dict.get? reply "result"),
        error⟩ := by
  simp only [responseOf, found]
  rfl

theorem ownReply_object {request : RpcRequest} {id result : Value} {entries : Dict}
    {message : String}
    (shown : ((Dict.get? entries "message").getD (.text "unknown RPC error")).displayed =
      .ok message) :
    Batch.ownReply request ⟨id, result, .dict entries⟩ =
      Outcome.fault (.rpc message .rpc request.method (some (.list request.params))
        ((Dict.get? entries "code").getD .null) ((Dict.get? entries "data").getD .null)) := by
  simp [Batch.ownReply, RpcResponse.unwrap, RpcResponse.isError, Fault.ofErrorObject,
    Value.lookup, shown]

theorem isReportable_object {entries : Dict} {message : String}
    (shown : ((Dict.get? entries "message").getD (.text "unknown RPC error")).displayed =
      .ok message) : (Value.dict entries).IsReportable := by
  refine ⟨entries, rfl, ?_⟩
  rw [Value.displayed] at shown
  split at shown
  · assumption
  · simp at shown

theorem responseOf_reads {request : RpcRequest} {reply : Dict} {default : Value}
    (method : String) (number : default = .null ∨ default = .int request.id)
    {outcome : Outcome Value} (conveys : Conveys request reply outcome) :
    ∃ response, responseOf (.dict reply) method default = .ok response ∧
      Reads request reply response := by
  cases conveys with
  | result fine =>
      have found : errorOf (Value.ofOption (Dict.get? reply "error")) = .ok .null := by
        rw [fine]
        rfl
      exact ⟨_, responseOf_dict method default found, numbers_iff rfl number, .result fine, nofun⟩
  | @error entries message reported shown =>
      have found : errorOf (Value.ofOption (Dict.get? reply "error")) = .ok (.dict entries) := by
        rw [reported]
        rfl
      refine ⟨_, responseOf_dict method default found, numbers_iff rfl number, ?_, ?_⟩
      · rw [ownReply_object shown]
        exact .error reported shown
      · exact fun _ => isReportable_object shown
  | @message error message reported present plain shown =>
      have found : errorOf (Value.ofOption (Dict.get? reply "error")) =
          .ok (.dict [("message", .text message)]) := by
        rw [reported]
        cases error with
        | null => exact absurd rfl present
        | dict entries => exact absurd rfl (plain entries)
        | _ => simp [errorOf, Value.ofOption, shown]
      have shownAgain : ((Dict.get? [("message", .text message)] "message").getD
          (.text "unknown RPC error")).displayed = .ok message := rfl
      refine ⟨_, responseOf_dict method default found, numbers_iff rfl number, ?_, ?_⟩
      · rw [ownReply_object shownAgain]
        exact .message reported present plain shown
      · exact fun _ => isReportable_object shownAgain

/-- The responses that stand for the replies to requests. -/
inductive ReadsAll : List RpcRequest → List Dict → List RpcResponse → Prop where
  | nil : ReadsAll [] [] []
  | cons {request : RpcRequest} {reply : Dict} {response : RpcResponse}
      {requests : List RpcRequest} {replies : List Dict} {responses : List RpcResponse}
      (first : Reads request reply response) (rest : ReadsAll requests replies responses) :
      ReadsAll (request :: requests) (reply :: replies) (response :: responses)

/-- How a round trip ends with the replies of a provider: with their responses, unless one of them
says nothing that can be shown. -/
inductive Hears (requests : List RpcRequest) (replies : List Dict) :
    Ending (List RpcResponse) → Prop where
  | all {responses : List RpcResponse} (reads : ReadsAll requests replies responses) :
      Hears requests replies (.ended (.ok responses))
  | silent {request : RpcRequest} {reply : Dict} {ending : Ending (List RpcResponse)}
      (member : (request, reply) ∈ requests.zip replies)
      (nothing : ¬∃ outcome, Conveys request reply outcome) : Hears requests replies ending

section Answers

open Activity

variable {start stop : Rat} {labels : List Label} {requests : List RpcRequest}
  {replies : List Dict} {served : List ((String × List Value) × Dict)}
  {ending : Ending (List RpcResponse)}

theorem Hears.cons {request : RpcRequest} {reply : Dict} {response : RpcResponse}
    {early : Ending (List RpcResponse)} (first : Reads request reply response)
    (hears : Hears requests replies early)
    (follows : (∃ responses, early = .ended (.ok responses) ∧
      ending = .ended (.ok (response :: responses))) ∨ Abandons early ending) :
    Hears (request :: requests) (reply :: replies) ending := by
  cases hears with
  | all reads =>
      rcases follows with ⟨responses, ⟨⟩, rfl⟩ | abandons
      · exact .all (.cons first reads)
      · cases abandons
  | silent member nothing => exact .silent (List.mem_cons_of_mem _ member) nothing

theorem perform_inv {query : Query} {α : Type} {next : Reply query.Answer → Activity α}
    {ending : Ending α} (run : Run (.ask query none next) start labels ending stop)
    (serves : Serves labels served) :
    ∃ reply moment after, labels = .asked query start moment reply :: after ∧
      Run (next reply) moment after ending stop := by
  cases run with
  | ask early closes following => exact ⟨_, _, _, rfl, following⟩
  | stuck endless => cases serves

theorem request_inv {request : RpcRequest} {default : Value} {ending : Ending RpcResponse}
    (run : Run (do
      let raw ← Provider.request request.method request.params
      responseOf raw request.method default) start labels ending stop)
    (serves : Serves labels served) :
    ∃ reply, served = [(request.question, reply)] ∧
      ending = .ended (responseOf (.dict reply) request.method default) := by
  rcases perform_inv run serves with ⟨reply, moment, after, rfl, following⟩
  cases serves with
  | one rest =>
      rcases Run.done_inv following with ⟨rfl, ended, _⟩
      cases rest
      exact ⟨_, rfl, ended⟩

theorem sendEach_inv (run : Run (sendEach requests) start labels ending stop)
    (serves : Serves labels served) :
    ∃ replies, replies.length ≤ requests.length ∧
      served = (requests.map RpcRequest.question).zip replies ∧ Hears requests replies ending := by
  induction requests generalizing start labels served ending with
  | nil =>
      rcases Run.done_inv run with ⟨rfl, rfl, _⟩
      cases serves
      exact ⟨[], Nat.le_refl 0, rfl, .all .nil⟩
  | cons request requests ih =>
      rw [sendEach, List.mapM_cons] at run
      rcases Run.bind_inv run with ⟨response, _, _, _, asks, follows, rfl⟩ |
        ⟨early, asks, abandons⟩
      · rcases serves.append_inv with ⟨_, others, servesFirst, servesRest, rfl⟩
        rcases request_inv asks servesFirst with ⟨reply, rfl, read⟩
        rcases Run.bind_pure_inv follows with ⟨early, rest, ended⟩
        rcases ih rest servesRest with ⟨replies, length, rfl, hears⟩
        refine ⟨reply :: replies, Nat.succ_le_succ length, rfl, ?_⟩
        -- A reply that says nothing decides, whether the round trip went on after it or not.
        by_cases conveys : ∃ outcome, Conveys request reply outcome
        · rcases conveys with ⟨outcome, conveys⟩
          rcases responseOf_reads request.method (Or.inr rfl) conveys with ⟨_, found, reads⟩
          rw [found] at read
          cases read
          exact hears.cons reads ended
        · exact .silent List.mem_cons_self conveys
      · rcases request_inv asks serves with ⟨reply, rfl, rfl⟩
        refine ⟨[reply], by simp, by simp, .silent List.mem_cons_self ?_⟩
        rintro ⟨outcome, conveys⟩
        rcases responseOf_reads request.method (Or.inr rfl) conveys with ⟨_, found, _⟩
        rw [found] at abandons
        cases abandons

theorem readAll_inv (length : replies.length = requests.length)
    (run : Run ((replies.map Value.dict).mapM fun item =>
      (responseOf item "batch" : Activity RpcResponse)) start labels ending stop) :
    labels = [] ∧ Hears requests replies ending := by
  induction replies generalizing requests start labels ending with
  | nil =>
      rcases Run.done_inv run with ⟨rfl, rfl, _⟩
      rw [List.length_eq_zero_iff.mp length.symm]
      exact ⟨rfl, .all .nil⟩
  | cons reply replies ih =>
      cases requests with
      | nil => simp at length
      | cons request requests =>
          rw [List.map_cons, List.mapM_cons] at run
          rcases Run.lift_bind_inv run with ⟨response, found, follows⟩ | ⟨failure, found, rfl, rfl⟩
          · rcases Run.bind_pure_inv follows with ⟨early, rest, ended⟩
            rcases ih (by simpa using length) rest with ⟨rfl, hears⟩
            refine ⟨rfl, ?_⟩
            by_cases conveys : ∃ outcome, Conveys request reply outcome
            · rcases conveys with ⟨outcome, conveys⟩
              rcases responseOf_reads "batch" (Or.inl rfl) conveys with ⟨_, read, reads⟩
              cases found.symm.trans read
              exact hears.cons reads ended
            · exact .silent List.mem_cons_self conveys
          · refine ⟨rfl, .silent List.mem_cons_self ?_⟩
            rintro ⟨outcome, conveys⟩
            rcases responseOf_reads "batch" (Or.inl rfl) conveys with ⟨_, read, _⟩
            cases found.symm.trans read

theorem sendTogether_inv (run : Run (sendTogether requests) start labels ending stop)
    (serves : Serves labels served) :
    ∃ replies, replies.length ≤ requests.length ∧
      served = (requests.map RpcRequest.question).zip replies ∧ Hears requests replies ending := by
  rcases perform_inv run serves with ⟨reply, moment, after, rfl, follows⟩
  cases serves with
  | @together _ replies _ _ _ _ length rest =>
      have sameLength : replies.length = requests.length := by simpa using length
      rcases readAll_inv sameLength follows with ⟨rfl, hears⟩
      cases rest
      exact ⟨replies, Nat.le_of_eq sameLength, List.append_nil _, hears⟩

/-- What a provider was asked and replied, and how the round trip ended with that. -/
theorem sendBatch_inv {provider : Provider}
    (run : Run (provider.sendBatch requests) start labels ending stop)
    (serves : Serves labels served) :
    ∃ replies, replies.length ≤ requests.length ∧
      served = (requests.map RpcRequest.question).zip replies ∧ Hears requests replies ending := by
  rw [sendBatch] at run
  split at run
  · next empty =>
      rcases Run.done_inv run with ⟨rfl, rfl, _⟩
      cases serves
      rw [List.isEmpty_iff.mp empty]
      exact ⟨[], Nat.le_refl 0, rfl, .all .nil⟩
  · split at run
    · exact sendTogether_inv run serves
    · rcases Run.emit_bind_inv run with ⟨_, sends, rfl⟩
      cases serves with
      | told rest => exact sendEach_inv sends rest

end Answers

end Provider

end ContractClient
