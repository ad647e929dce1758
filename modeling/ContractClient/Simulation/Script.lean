import ContractClient.Exchange.Failure
import ContractClient.Json.Writer
import ContractClient.Log.Journal
import ContractClient.Retry
import ContractClient.Signing.SecretKey
import ContractClient.World

/-!
# Scripted worlds

A scripted world answers from replies that were written down before. Each question takes the next
reply for it; the last reply stays and answers all later questions. A reply may come after a number
of seconds, or never. The world records what it was asked, what was noted, and how far the pending
transaction has come.
-/

namespace ContractClient

/-- A world whose replies are written down. -/
structure ScriptedWorld where
  /-- The seconds that have passed. -/
  now : Rat := 0
  methods : List (String × List Value) := []
  /-- The replies to whole batches; without any a batch is answered request by request. -/
  batches : Option (List Value) := none
  /-- The replies of a server or a provider. -/
  replies : List Value := []
  /-- How the signing agent behaves. -/
  agent : Value := .null
  canDisconnect : Bool := true
  /-- What was asked. -/
  calls : List Value := []
  journal : Journal := {}
  pending : Option PendingTransaction := none
  deriving Inhabited

namespace ScriptedWorld

def secondsOfValue : Value → Rat
  | .int number => number
  | .float number => secondsOf number
  | _ => 0

/-- The seconds after which a reply comes; none if it never comes. -/
def delayOf (reply : Value) : Option Rat :=
  if (reply.part "hang").isTruthy then none else some (secondsOfValue (reply.part "delay"))

/-- The next reply, and those that are left. -/
def takeReply : List Value → Value × List Value
  | [] => (.dict [], [])
  | [reply] => (reply, [reply])
  | reply :: replies => (reply, replies)

def raised (reply : Value) : Failure :=
  Failure.named (reply.part "raise").asText (reply.part "text").asText

def outcomeOf (reply : Value) (method : String) (params : Option Value) : Outcome Value :=
  if reply.has "rpc_error" then do
    Outcome.fault (← Fault.ofErrorObject (reply.part "rpc_error") method params)
  else if reply.has "transport_error" then
    Outcome.fault (.rpcTransport (reply.part "transport_error").asText method)
  else if reply.has "raise" then .error (raised reply)
  else .ok (reply.part "result")

def record (world : ScriptedWorld) (call : Value) : ScriptedWorld :=
  { world with calls := world.calls ++ [call] }

/-- Takes the next reply to a method. -/
def takeMethod (world : ScriptedWorld) (method : String) : Value × ScriptedWorld :=
  let (reply, left) := takeReply ((world.methods.lookup method).getD [])
  let methods := world.methods.map fun (name, replies) =>
    (name, if name = method then left else replies)
  (reply, { world with methods })

def addReplies (methods : List (String × List Value)) (method : String) (replies : List Value) :
    List (String × List Value) :=
  match methods with
  | [] => [(method, replies)]
  | (name, old) :: rest =>
    if name = method then (name, old ++ replies) :: rest
    else (name, old) :: addReplies rest method replies

def addScript (world : ScriptedWorld) (script : Value) : ScriptedWorld :=
  let add := fun methods (entry : String × Value) => addReplies methods entry.1 entry.2.parts
  { world with methods := script.entries.foldl add world.methods }

/-- What a reply makes of a request in a batch: an error of the node answers this request alone,
anything else ends the batch. -/
def responseOf (reply : Value) (request : RpcRequest) : Outcome RpcResponse :=
  match outcomeOf reply request.method (some (.list request.params)) with
  | .ok result => .ok { id := .int request.id, result }
  | .error (.fault fault) =>
    match fault.kind, fault.payload with
    | .rpc, .rpc code data =>
      let error : Value :=
        .dict [("code", code), ("message", .ofText? fault.message), ("data", data)]
      .ok { id := .int request.id, error }
    | _, _ => .error (.fault fault)
  | .error failure => .error failure

/-- Answers the requests of a batch one after the other. -/
def answerEach (world : ScriptedWorld) : List RpcRequest →
    Option Rat × Outcome (List RpcResponse) × ScriptedWorld
  | [] => (some 0, .ok [], world)
  | request :: requests =>
    let (reply, world) := world.takeMethod request.method
    match delayOf reply, responseOf reply request with
    | none, _ => (none, .ok [], world)
    | some delay, .error failure => (some delay, .error failure, world)
    | some delay, .ok response =>
      let (later, responses, world) := answerEach world requests
      (later.map (delay + ·), responses.map (response :: ·), world)

def responsesOf (reply : Value) : Outcome (List RpcResponse) :=
  if reply.has "responses" then (reply.part "responses").parts.mapM RpcResponse.ofValue
  else (outcomeOf reply "batch" none).map fun _ => []

def answerBatch (world : ScriptedWorld) (requests : List RpcRequest) :
    Option Rat × Outcome (List RpcResponse) × ScriptedWorld :=
  match world.batches with
  | none => answerEach world requests
  | some replies =>
    let (reply, left) := takeReply replies
    (delayOf reply, responsesOf reply, { world with batches := some left })

/-- The body of a server's reply: a text, or a document. -/
def bodyOf (reply : Value) : String :=
  if reply.has "text" then (reply.part "text").asText
  else match reply.part "json" with
    | .null => ""
    | document => Json.write document

def httpReplyOf (reply : Value) : Outcome HttpReply :=
  if reply.has "raise" then .error (raised reply)
  else .ok {
    status := if reply.has "status" then (reply.part "status").asInt else 200
    body := (bodyOf reply).toUTF8.toList }

def providerReplyOf (reply : Value) (method : String) : Outcome Value :=
  if reply.has "reply" then .ok (reply.part "reply") else outcomeOf reply method none

/-- What the signing agent replies: it fails, or signs with a key, or replies something else. -/
def agentReply (agent : Value) (digest : Bytes) : Outcome Value :=
  if agent.has "raise" then .error (raised agent)
  else if agent.has "key" then do
    let signature ← (← SecretKey.ofValue (agent.untagged "key")).signDigest digest
    return .tuple [.int signature.r, .int signature.s, .int signature.recoveryId]
  else .ok (agent.untagged "reply")

def callValue (method : String) (params : List Value) : Value :=
  .list [.text method, .list params]

/-- Records a question and takes the next reply of a server or a provider. -/
def recordAndTake (world : ScriptedWorld) (call : Value) : Value × ScriptedWorld :=
  let (reply, replies) := takeReply world.replies
  (reply, { world.record call with replies })

def respond (world : ScriptedWorld) (_ : Rat) : (query : Query) → Response ScriptedWorld query
  | .sleep seconds => { delay := some seconds, answer := (), next := world }
  | .call method params =>
    let (reply, next) := (world.record (callValue method params)).takeMethod method
    { delay := delayOf reply, answer := outcomeOf reply method (some (.list params)), next }
  | .batch requests =>
    let world := world.record (.list (requests.map RpcRequest.toValue))
    let (delay, answer, next) := world.answerBatch requests
    { delay, answer, next }
  | .sign digest => { delay := some 0, answer := agentReply world.agent digest, next := world }
  | .post body =>
    let (reply, next) := world.recordAndTake body
    { delay := delayOf reply, answer := httpReplyOf reply, next }
  | .provide method params =>
    let (reply, next) := world.recordAndTake (callValue method params)
    { delay := delayOf reply, answer := providerReplyOf reply method, next }
  | .provideBatch requests =>
    let (reply, next) := world.recordAndTake
      (.list (requests.map fun (method, params) => callValue method params))
    { delay := delayOf reply, answer := providerReplyOf reply "batch", next }
  | .disconnect =>
    { delay := some 0, next := world.record (.text "disconnect")
      answer := if world.canDisconnect then .ok () else Outcome.condition .notImplemented }

def observe (world : ScriptedWorld) : Event → ScriptedWorld
  | .note record => match world.journal.write record with
    | .ok journal => { world with journal }
    | .error _ => world
  | .progress pending => { world with pending := some pending }

def world : World ScriptedWorld := { respond, observe }

end ScriptedWorld

end ContractClient
