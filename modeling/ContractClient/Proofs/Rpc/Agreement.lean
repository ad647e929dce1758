import ContractClient.Proofs.Dict
import ContractClient.Proofs.Json.Reader
import ContractClient.Proofs.Rpc.Http
import ContractClient.Rpc.Provider

/-!
# Replies over both transports

A reply says the same over HTTP and through a provider: it carries a result, or it reports an error,
or it is no object at all (`Replies.send_agrees`). The exception is an error that is no object
(`IsStray`): a provider's error becomes the message of a fault, but over HTTP nothing can be looked
up in it.
-/

namespace ContractClient

open Activity Outcome

theorem Dict.isShowable_memberOf {entries : Dict} {key : String}
    (showable : (Value.dict entries).isShowable = true) :
    (memberOf entries key).isShowable = true := by
  rw [memberOf]
  cases found : get? entries key with
  | none => rfl
  | some member => exact Value.isShowable_of_get? showable found

/-- The fault that an error object reports. -/
def Fault.reported (error : Dict) (method : String) (params : Option Value := none) : Fault :=
  .rpc ((Dict.get? error "message").getD (.text "unknown RPC error")).display .rpc method params
    (Dict.memberOf error "code") (Dict.memberOf error "data")

theorem Fault.ofErrorObject_dict {error : Dict} (showable : (Value.dict error).isShowable = true)
    (method : String) (params : Option Value) :
    ofErrorObject (.dict error) method params = .ok (reported error method params) := by
  have shown :
      ((Dict.get? error "message").getD (.text "unknown RPC error")).isShowable = true := by
    cases found : Dict.get? error "message" with
    | none => rfl
    | some message => exact Value.isShowable_of_get? showable found
  simp [ofErrorObject, Value.lookup, Value.displayed, shown, reported, Dict.memberOf]

/-- The error of a reply is neither missing nor an object. -/
def IsStray (reply : Value) : Prop :=
  ∃ entries, reply = .dict entries ∧ Dict.memberOf entries "error" ≠ .null ∧
    ∀ error, Dict.memberOf entries "error" ≠ .dict error

/-- Two outcomes of a request say the same: there is one result, or both are faults of a node, or
there was no answer for either. -/
inductive Agree : Outcome Value → Outcome Value → Prop where
  | result (value : Value) : Agree (.ok value) (.ok value)
  | error {one other : Fault} (kind : one.kind = .rpc) (sameKind : other.kind = .rpc)
      (message : other.message = one.message) (payload : other.payload = one.payload) :
      Agree (Outcome.fault one) (Outcome.fault other)
  | transport {one other : Fault} (kind : one.kind = .rpcTransport)
      (sameKind : other.kind = .rpcTransport) (payload : other.payload = one.payload) :
      Agree (Outcome.fault one) (Outcome.fault other)

/-- What a reply comes to: its result, or what its error reports. An error that is no object is read
in one way or another. -/
def readingOf (stray : Value → Outcome Value) (noObject : Fault) (request : RpcRequest) :
    Value → Outcome Value
  | .dict entries => match Dict.memberOf entries "error" with
    | .null => .ok (Dict.memberOf entries "result")
    | .dict error => Outcome.fault (.reported error request.method (some (.list request.params)))
    | other => stray other
  | _ => Outcome.fault noObject

namespace Http

/-- What a reply over HTTP comes to. -/
def reading (request : RpcRequest) : Value → Outcome Value :=
  readingOf (fun _ => Outcome.condition .missingMember)
    (.rpcTransport "Expected a JSON-RPC object in reply" request.method
      (some (.list request.params))) request

variable {config : TransportConfig} {request : RpcRequest} {body : Bytes} {value : Value}
  {start stop : Rat} {labels : List Label} {ending : Ending Value}

/-- What is done with the value of a reply. -/
def answered (request : RpcRequest) (payload : Value) : Activity Value :=
  match payload with
  | .dict _ => do
    let response ← RpcResponse.ofValue payload
    if response.isError then
      let code ← response.error.lookup "code"
      Activity.note .debug logger "RPC returned error"
        [("method", .text request.method), ("rpc_code", code)]
    response.unwrap request.method (some (.list request.params))
  | _ =>
    Activity.fault <| .rpcTransport "Expected a JSON-RPC object in reply" request.method
      (some (.list request.params))

theorem send_eq :
    send config request = post config request.toValue request.method >>= answered request :=
  rfl

/-- What is done with an error. -/
def refuse (request : RpcRequest) (error : Value) : Activity Value := do
  let code ← error.lookup "code"
  Activity.note .debug logger "RPC returned error"
    [("method", .text request.method), ("rpc_code", code)]
  let outcome : Outcome Value := do
    Outcome.fault (← Fault.ofErrorObject error request.method (some (.list request.params)))
  outcome

theorem answered_dict {entries : Dict} : answered request (.dict entries) =
    match Dict.memberOf entries "error" with
    | .null => done (.ok (Dict.memberOf entries "result"))
    | error => refuse request error := by
  have read : RpcResponse.ofValue (.dict entries) = .ok {
      id := Dict.memberOf entries "id", result := Dict.memberOf entries "result"
      error := Dict.memberOf entries "error" } := rfl
  simp only [answered, read]
  cases Dict.memberOf entries "error" <;> rfl

theorem quiet_answered (payload : Value) : (answered request payload).Asks fun _ => False := by
  cases payload with
  | dict entries =>
      rw [answered_dict]
      split
      · trivial
      · exact Asks.bind (Asks.lift _) fun code => trivial
  | _ => trivial

/-- With the value of a reply nothing is asked; an error object is noted. -/
theorem answered_eq (showable : value.isShowable = true) :
    answered request value = done (reading request value) ∨
      ∃ event, answered request value = tell event (done (reading request value)) := by
  cases value with
  | dict entries =>
      have shown : (Dict.memberOf entries "error").isShowable = true :=
        Dict.isShowable_memberOf showable
      rw [answered_dict, reading, readingOf]
      generalize Dict.memberOf entries "error" = error at shown
      cases error with
      | dict error =>
          simp only [refuse, Fault.ofErrorObject_dict shown]
          exact Or.inr ⟨_, rfl⟩
      | _ => exact Or.inl rfl
  | _ => exact Or.inl rfl

theorem valueOfReply_of_read (read : Json.readBytes? body = some value) (method : String) :
    valueOfReply method ⟨200, body⟩ = .ok value := by
  simp [valueOfReply, isTransientStatus, read]

theorem send_inv (read : Json.readBytes? body = some value)
    (run : Run (send config request) start labels ending stop)
    (posted : Posted request.toValue ⟨200, body⟩ labels) :
    ending = .ended (reading request value) := by
  have carries := valueOfReply_of_read read request.method
  rw [send_eq] at run
  rcases post_bind_inv quiet_answered carries run posted with ⟨before, middle, after, rfl, reads⟩
  rcases answered_eq (Json.isShowable_of_readBytes? read) with same | ⟨event, same⟩
  · rw [same] at reads
    exact (Run.done_inv reads).2.1
  · rw [same] at reads
    rcases Run.tell_inv reads with ⟨_, ends, _⟩
    exact (Run.done_inv ends).2.1

theorem send_run (attempts : config.maxAttempts ≠ 0) (read : Json.readBytes? body = some value)
    (start : Rat) : ∃ labels, Posted request.toValue ⟨200, body⟩ labels ∧
      Run (send config request) start labels (.ended (reading request value)) start := by
  have posts : Run (post config request.toValue request.method) start _ _ start :=
    post_run attempts (valueOfReply_of_read read request.method) start
  have reads : ∃ notes,
      Run (answered request value) start notes (.ended (reading request value)) start := by
    rcases answered_eq (Json.isShowable_of_readBytes? read) with same | ⟨event, same⟩
    · exact ⟨[], same ▸ .done⟩
    · exact ⟨[.told start event], same ▸ .tell .done⟩
  rcases reads with ⟨notes, reads⟩
  exact ⟨_, ⟨start, start, List.mem_cons_self⟩, posts.andThen reads⟩

end Http

namespace Provider

variable {request : RpcRequest} {value : Value} {start stop : Rat} {labels : List Label}
  {ending : Ending Value}

/-- A provider replied so to a request. -/
def Provided (request : RpcRequest) (reply : Value) (labels : List Label) : Prop :=
  ∃ start stop,
    .asked (.provide request.method request.params) start stop (.answer (.ok reply)) ∈ labels

/-- What a reply of a provider comes to. -/
def reading (request : RpcRequest) : Value → Outcome Value :=
  readingOf
    (fun error =>
      Outcome.fault (.rpc error.display .rpc request.method (some (.list request.params))))
    (.rpcTransport "Provider returned a non-object reply" request.method) request

theorem unwrap_responseOf (showable : value.isShowable = true) :
    (do (← responseOf value request.method).unwrap request.method (some (.list request.params))) =
      reading request value := by
  cases value with
  | dict entries =>
      have shown : (Dict.memberOf entries "error").isShowable = true :=
        Dict.isShowable_memberOf showable
      simp only [responseOf, Dict.ofOption_get?, reading, readingOf]
      generalize Dict.memberOf entries "error" = error at shown
      cases error with
      | null => rfl
      | dict error =>
          simp only [errorOf, ok_bind, pure_eq_ok, RpcResponse.unwrap, RpcResponse.isError, if_true,
            Fault.ofErrorObject_dict shown]
      | _ =>
          simp only [errorOf, Value.displayed, shown, ok_bind, pure_eq_ok, RpcResponse.unwrap,
            RpcResponse.isError, if_true]
          rfl
  | _ => rfl

/-- How a request ends with a reply. -/
def replied (request : RpcRequest) : Reply (Outcome Value) → Outcome Value
  | .answer (.ok raw) => do
    (← responseOf raw request.method).unwrap request.method (some (.list request.params))
  | .answer (.error failure) =>
    .error (failureOf request.method (some (.list request.params)) failure)
  | _ => .error (failureOf request.method (some (.list request.params)) .cancelled)

theorem send_eq : send request.method request.params =
    ask (.provide request.method request.params) none fun reply =>
      done (replied request reply) := by
  refine congrArg (ask (.provide request.method request.params) none) (funext fun reply => ?_)
  rcases reply with outcome | _ | _
  · cases outcome with
    | error failure => rfl
    | ok raw =>
        change (liftM (responseOf raw request.method) >>= fun response =>
          liftM (response.unwrap request.method (some (.list request.params)))) = done (replied _ _)
        rw [replied]
        cases responseOf raw request.method <;> rfl
  · rfl
  · rfl

theorem send_inv (showable : value.isShowable = true)
    (run : Run (send request.method request.params) start labels ending stop)
    (provided : Provided request value labels) : ending = .ended (reading request value) := by
  rw [send_eq] at run
  cases run with
  | stuck endless => simp [Provided] at provided
  | @ask _ _ _ reply _ _ _ _ _ early closes next =>
      rcases Run.done_inv next with ⟨rfl, rfl, _⟩
      obtain rfl : reply = .answer (.ok value) := by
        simpa [Provided, eq_comm] using provided
      rw [replied, unwrap_responseOf showable]

theorem send_run (showable : value.isShowable = true) (start : Rat) :
    ∃ labels, Provided request value labels ∧
      Run (send request.method request.params) start labels (.ended (reading request value))
        start := by
  have sends : Run (send request.method request.params) start
      [.asked (.provide request.method request.params) start start (.answer (.ok value))]
      (.ended (reading request value)) start := by
    rw [send_eq, ← unwrap_responseOf showable]
    exact .ask (by simp) (.atOnce rfl) .done
  exact ⟨_, ⟨start, start, List.mem_cons_self⟩, sends⟩

end Provider

theorem reading_agrees (request : RpcRequest) {reply : Value} (plain : ¬IsStray reply) :
    Agree (Http.reading request reply) (Provider.reading request reply) := by
  unfold Http.reading Provider.reading readingOf
  split
  · next entries =>
      split
      · exact .result _
      · exact .error rfl rfl rfl rfl
      · next noNull noObject => exact absurd ⟨entries, rfl, noNull, noObject⟩ plain
  · exact .transport rfl rfl rfl

theorem reading_of_isStray (request : RpcRequest) {reply : Value} (stray : IsStray reply) :
    Http.reading request reply = Outcome.condition .missingMember ∧ ∃ fault,
      Provider.reading request reply = Outcome.fault fault ∧ fault.kind = .rpc ∧
        fault.payload = .rpc .null .null := by
  rcases stray with ⟨entries, rfl, noNull, noObject⟩
  unfold Http.reading Provider.reading readingOf
  dsimp only
  generalize Dict.memberOf entries "error" = error at noNull noObject
  cases error with
  | null => exact absurd rfl noNull
  | dict error => exact absurd rfl (noObject error)
  | _ => exact ⟨rfl, _, rfl, rfl, rfl⟩

/-- A reply over HTTP and the same reply of a provider say the same, with one exception: an error
that is no object. That one is reported by a provider, but stops a request over HTTP. -/
theorem Replies.send_agrees {config : TransportConfig} {request : RpcRequest} {body : Bytes}
    {reply : Value} (read : Json.readBytes? body = some reply)
    {start stop : Rat} {labels : List Label} {overHttp : Ending Value}
    (httpRun : Run (Http.send config request) start labels overHttp stop)
    (posted : Http.Posted request.toValue ⟨200, body⟩ labels)
    {otherStart otherStop : Rat} {otherLabels : List Label} {overProvider : Ending Value}
    (providerRun : Run (Provider.send request.method request.params) otherStart otherLabels
      overProvider otherStop)
    (provided : Provider.Provided request reply otherLabels) :
    (¬IsStray reply → ∃ one other, overHttp = .ended one ∧ overProvider = .ended other ∧
        Agree one other) ∧
      (IsStray reply → overHttp = .ended (Outcome.condition .missingMember) ∧
        ∃ fault, overProvider = .ended (Outcome.fault fault) ∧ fault.kind = .rpc ∧
          fault.payload = .rpc .null .null) := by
  have showable := Json.isShowable_of_readBytes? read
  rw [Http.send_inv read httpRun posted, Provider.send_inv showable providerRun provided]
  refine ⟨fun plain => ⟨_, _, rfl, rfl, reading_agrees request plain⟩, fun stray => ?_⟩
  rcases reading_of_isStray request stray with ⟨stopped, fault, reports, kind, payload⟩
  rw [stopped, reports]
  exact ⟨rfl, fault, rfl, kind, payload⟩

section Examples

/-- The configuration of a client that is not told anything but where its node is. -/
def nearby : TransportConfig :=
  { url := "http://localhost:8545" }

def chainIdRequest : RpcRequest :=
  ⟨1, "eth_chainId", []⟩

/-- Whether a value is an object with one member, a text. -/
def isTextMember (key text : String) : Value → Bool
  | .dict [(other, .text found)] => other == key && found == text
  | _ => false

theorem read_of_isTextMember {body : Bytes} {key text : String}
    (found : (Json.readBytes? body).any (isTextMember key text) = true) :
    Json.readBytes? body = some (.dict [(key, .text text)]) := by
  cases read : Json.readBytes? body with
  | none => simp [read] at found
  | some value =>
      rw [read, Option.any_some] at found
      unfold isTextMember at found
      split at found
      · simpa using found
      · cases found

/-- A reply that carries a result and nothing else. -/
def resultReply : Value :=
  .dict [("result", .text "0x1")]

def resultBody : Bytes :=
  Bytes.ofText "\x7b\"result\":\"0x1\"\x7d"

theorem read_resultBody : Json.readBytes? resultBody = some resultReply :=
  read_of_isTextMember (by decide +kernel)

theorem send_agrees_result :
    Json.readBytes? resultBody = some resultReply ∧ ¬IsStray resultReply ∧ ∃ one other,
      (∃ labels, Http.Posted chainIdRequest.toValue ⟨200, resultBody⟩ labels ∧
          Run (Http.send nearby chainIdRequest) 0 labels (.ended one) 0) ∧
        (∃ labels, Provider.Provided chainIdRequest resultReply labels ∧
          Run (Provider.send "eth_chainId" []) 0 labels (.ended other) 0) ∧ Agree one other := by
  have attempts : nearby.maxAttempts ≠ 0 := by decide
  have showable := Json.isShowable_of_readBytes? read_resultBody
  have plain : ¬IsStray resultReply := by
    rintro ⟨_, ⟨⟩, noNull, _⟩
    exact noNull rfl
  obtain ⟨labels, posted, httpRun⟩ : ∃ labels,
      Http.Posted chainIdRequest.toValue ⟨200, resultBody⟩ labels ∧
        Run (Http.send nearby chainIdRequest) 0 labels _ 0 :=
    Http.send_run attempts read_resultBody 0
  obtain ⟨otherLabels, provided, providerRun⟩ : ∃ labels,
      Provider.Provided chainIdRequest resultReply labels ∧
        Run (Provider.send "eth_chainId" []) 0 labels _ 0 :=
    Provider.send_run showable 0
  have agrees := Replies.send_agrees read_resultBody httpRun posted providerRun provided
  rcases agrees.1 plain with ⟨one, other, ⟨⟩, ⟨⟩, agree⟩
  exact ⟨read_resultBody, plain, _, _, ⟨labels, posted, httpRun⟩,
    ⟨otherLabels, provided, providerRun⟩, agree⟩

/-- A reply with an error that is a text. -/
def textErrorReply : Value :=
  .dict [("error", .text "boom")]

def textErrorBody : Bytes :=
  Bytes.ofText "\x7b\"error\":\"boom\"\x7d"

theorem read_textErrorBody : Json.readBytes? textErrorBody = some textErrorReply :=
  read_of_isTextMember (by decide +kernel)

theorem textError_disagrees :
    Json.readBytes? textErrorBody = some textErrorReply ∧
      (∃ labels, Http.Posted chainIdRequest.toValue ⟨200, textErrorBody⟩ labels ∧
        Run (Http.send nearby chainIdRequest) 0 labels
          (.ended (Outcome.condition .missingMember)) 0) ∧
      ∃ labels, Provider.Provided chainIdRequest textErrorReply labels ∧
        Run (Provider.send "eth_chainId" []) 0 labels
          (.ended (Outcome.fault (.rpc "boom" .rpc "eth_chainId" (some (.list []))))) 0 := by
  have attempts : nearby.maxAttempts ≠ 0 := by decide
  exact ⟨read_textErrorBody, Http.send_run attempts read_textErrorBody 0,
    Provider.send_run (Json.isShowable_of_readBytes? read_textErrorBody) 0⟩

end Examples

end ContractClient
