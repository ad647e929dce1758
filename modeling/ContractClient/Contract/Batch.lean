import ContractClient.Contract.Call

/-!
# Batches

A batch collects requests and sends them to a node in one round trip. Every request has a handle,
which is resolved once: by the result, by the node's error for this request, or by what went wrong
with the whole batch.

`Batch` keeps the requests that wait and what is known of all handles. A flush takes the waiting
requests (`Batch.take`), exchanges them for responses (`Batch.exchange`) and resolves their handles
(`Batch.resolve`); requests that are enqueued in between wait for the next flush.
-/

namespace ContractClient

/-- What is known of a request. -/
inductive HandleState where
  | waiting
  | resolved (outcome : Outcome Value)
  deriving Inhabited

def HandleState.isResolved : HandleState → Bool
  | waiting => false
  | resolved _ => true

/-- Resolves a handle. A handle that is resolved already stays as it is. -/
def HandleState.resolve (outcome : Outcome Value) : HandleState → HandleState
  | waiting => resolved outcome
  | resolved earlier => resolved earlier

/-- A request that waits, or a place that is kept for one that failed before it was sent. -/
structure BatchSlot where
  handle : Nat
  request : Option RpcRequest
  deriving Inhabited

/-- Requests that wait, and what is known of all handles, which are numbered from zero. -/
structure Batch where
  nextId : Int := 1
  pending : List BatchSlot := []
  handles : List HandleState := []
  deriving Inhabited

abbrev SentRequest := Nat × RpcRequest

abbrev Resolutions := List (Nat × Outcome Value)

namespace Batch

def logger : String := "ethcontract.contract.batch"

def enqueue (batch : Batch) (method : String) (params : List Value) : Batch × Nat :=
  let handle := batch.handles.length
  let request := { id := batch.nextId, method, params }
  ({ nextId := batch.nextId + 1
     pending := batch.pending ++ [{ handle, request := some request }]
     handles := batch.handles ++ [.waiting] }, handle)

/-- Keeps a place for a request that failed before it was sent. -/
def enqueueFailed (batch : Batch) (failure : Failure) : Batch × Nat :=
  let handle := batch.handles.length
  ({ batch with
     pending := batch.pending ++ [{ handle, request := none }]
     handles := batch.handles ++ [.resolved (.error failure)] }, handle)

def resolve (batch : Batch) (resolutions : Resolutions) : Batch :=
  { batch with
    handles := resolutions.foldl (fun handles (handle, outcome) =>
      handles.modify handle (HandleState.resolve outcome)) batch.handles }

/-- Drops the requests that wait, and returns how many there were. -/
def discard (batch : Batch) : Batch × Nat :=
  let cancelled := batch.pending.map fun slot => (slot.handle, Except.error Failure.cancelled)
  (({ batch with pending := [] } : Batch).resolve cancelled, batch.pending.length)

def sentRequests (slots : List BatchSlot) : List SentRequest :=
  slots.filterMap fun slot => slot.request.map fun request => (slot.handle, request)

def take (batch : Batch) : Batch × List SentRequest :=
  ({ batch with pending := [] }, sentRequests batch.pending)

/-- Whether a response may belong to a request: it carries the number of the request, or none. -/
def echoes (request : RpcRequest) (response : RpcResponse) : Bool :=
  match response.id with
  | .null => true
  | id => id.equalsInt request.id

/-- The fault of responses that do not belong to the requests. A response without a number is
accepted at its position; a wrong number that cannot be shown makes the check itself fail. -/
def desync? (requests : List RpcRequest) (responses : List RpcResponse) :
    Outcome (Option Fault) := do
  let expected := requests.map fun request => Value.int request.id
  let received := responses.map RpcResponse.id
  if responses.length ≠ requests.length then
    return some <| .batchDesync
      s!"Sent {requests.length} requests, received {responses.length} responses"
      (some expected) (some received)
  match (requests.zip responses).find? fun (request, response) => !echoes request response with
  | none => return none
  | some (request, response) =>
    let wrong ← response.id.rendered
    return some <| .batchDesync
      s!"Response id {wrong} does not match request id {request.id}"
      (some expected) (some received)

/-- What the responses resolve the handles by. An error that is no object, or has a message that
cannot be shown, ends the delivery. -/
def deliver : List SentRequest → List RpcResponse → Resolutions × Outcome Unit
  | (handle, request) :: requests, response :: responses =>
    let rest := deliver requests responses
    if response.isError then
      match Fault.ofErrorObject response.error request.method (some (.list request.params)) with
      | .ok fault => ((handle, Outcome.fault fault) :: rest.1, rest.2)
      | .error failure => ([], .error failure)
    else ((handle, .ok response.result) :: rest.1, rest.2)
  | _, _ => ([], .ok ())

def failAll (requests : List SentRequest) (failure : Failure) : Resolutions :=
  requests.map fun (handle, _) => (handle, .error failure)

def interrupted (size : Nat) : Fault :=
  .make .batch "Batch flush was interrupted before a reply arrived" "BATCH_INTERRUPTED" .null
    [("size", .int size)]

/-- What the reply to a batch resolves the handles by, and how the flush ends: with the number of
requests, or with the interruption that it met. -/
def conclude (requests : List SentRequest) (reply : Outcome (List RpcResponse)) :
    Resolutions × Outcome Nat :=
  let size := requests.length
  match reply with
  | .error failure =>
    if failure.isOrdinary then (failAll requests failure, .ok size)
    else (failAll requests (.fault (interrupted size)), .error failure)
  | .ok responses =>
    match desync? (requests.map Prod.snd) responses with
    | .error failure => ([], .error failure)
    | .ok (some fault) => (failAll requests (.fault fault), .ok size)
    | .ok none =>
      let (resolutions, outcome) := deliver requests responses
      (resolutions, outcome.map fun _ => size)

/-- Notes what is wrong with the reply to a whole batch. -/
def noteReply (requests : List SentRequest) (reply : Outcome (List RpcResponse)) : Activity Unit :=
  let size := requests.length
  match reply with
  | .error failure =>
    if failure.isOrdinary then
      Activity.note .warning logger "Batch transport failure"
        [("size", .int size), ("error", .text failure.summary)]
    else pure ()
  | .ok responses =>
    match desync? (requests.map Prod.snd) responses with
    | .ok (some _) =>
      Activity.note .error logger "Batch response desynchronized"
        [("size", .int size), ("received", .int responses.length)]
    | _ => pure ()

/-- Sends requests and returns what their handles are resolved by, and how the flush ends. -/
def exchange (transport : Transport) (requests : List SentRequest) :
    Activity (Resolutions × Outcome Nat) := do
  if requests.isEmpty then return ([], .ok 0)
  Activity.note .debug logger "Flushing batch" [("size", .int requests.length)]
  let reply ← (transport.sendBatch (requests.map Prod.snd)).attempt
  noteReply requests reply
  return conclude requests reply

/-- Sends the requests that wait and resolves their handles. -/
def flush (batch : Batch) (transport : Transport) : Activity (Batch × Outcome Nat) := do
  let (batch, requests) := batch.take
  let (resolutions, outcome) ← exchange transport requests
  return (batch.resolve resolutions, outcome)

/-- Adds the call of a function. A call whose parameters cannot be built keeps its place and is not
sent. -/
def enqueueCall (batch : Batch) (function : ContractFunction) (arguments : List Value)
    (recipient : Value) (options : CallOptions := {}) : Outcome (Batch × Nat) :=
  match Call.paramsOf function arguments recipient options with
  | .ok params => .ok (batch.enqueue "eth_call" params)
  | .error (.fault fault) =>
    if fault.kind.isA .encode || fault.kind.isA .validation then
      .ok (batch.enqueueFailed (.fault fault))
    else .error (.fault fault)
  | .error failure => .error failure

end Batch

end ContractClient
