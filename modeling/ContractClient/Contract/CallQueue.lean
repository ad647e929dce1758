import ContractClient.Contract.Batch

/-!
# Calls in batches

`CallQueue` is a batch that remembers which of its handles belong to calls of functions. What such a
handle yields is the value of the call, or the failure of a call that reverted.
-/

namespace ContractClient

/-- A batch and the functions of the calls among its handles. -/
structure CallQueue where
  batch : Batch := {}
  /-- For each handle the function that it calls, if it belongs to a call. -/
  functions : List (Option ContractFunction) := []
  deriving Inhabited

namespace CallQueue

def record (queue : CallQueue) (function : Option ContractFunction) (added : Batch × Nat) :
    CallQueue × Nat :=
  ({ batch := added.1, functions := queue.functions ++ [function] }, added.2)

def enqueue (queue : CallQueue) (method : String) (params : List Value) : CallQueue × Nat :=
  queue.record none (queue.batch.enqueue method params)

/-- Keeps a place for a request that failed before it was sent. -/
def enqueueFailed (queue : CallQueue) (failure : Failure) : CallQueue × Nat :=
  queue.record none (queue.batch.enqueueFailed failure)

def enqueueCall (queue : CallQueue) (function : ContractFunction) (arguments : List Value)
    (recipient : Value) (options : CallOptions := {}) : Outcome (CallQueue × Nat) := do
  return queue.record (some function)
    (← queue.batch.enqueueCall function arguments recipient options)

/-- Drops the requests that wait, and returns how many there were. -/
def discard (queue : CallQueue) : CallQueue × Nat :=
  let (batch, count) := queue.batch.discard
  ({ queue with batch }, count)

def isWaiting (queue : CallQueue) (handle : Nat) : Bool :=
  match queue.batch.handles[handle]? with
  | some .waiting => true
  | _ => false

/-- The function that a handle calls, if it belongs to a call. -/
def function? (queue : CallQueue) (handle : Nat) : Option ContractFunction :=
  queue.functions[handle]?.join

/-- What a handle yields; none while it waits. -/
def result? (queue : CallQueue) (decoder : RevertDecoder) (handle : Nat) :
    Option (Outcome Value) :=
  match queue.batch.handles[handle]?, queue.function? handle with
  | some (.resolved outcome), none => some outcome
  | some (.resolved outcome), some function => some (Call.conclude function decoder outcome)
  | _, _ => none

def flush (queue : CallQueue) (transport : Transport) : Activity (CallQueue × Outcome Nat) := do
  let (batch, outcome) ← queue.batch.flush transport
  return ({ queue with batch }, outcome)

/-- Sends the requests that wait. As soon as they are on their way another request is added, which
waits for the next time. -/
def flushThenEnqueue (queue : CallQueue) (transport : Transport) (method : String)
    (params : List Value) : Activity (CallQueue × Outcome Nat) := do
  let (batch, requests) := queue.batch.take
  let taken := { queue with batch }
  let queue := if requests.isEmpty then taken else (taken.enqueue method params).1
  let (resolutions, outcome) ← Batch.exchange transport requests
  return ({ queue with batch := queue.batch.resolve resolutions }, outcome)

/-- How many requests wait, and which handles are resolved. -/
def describe (queue : CallQueue) : Value :=
  .list [
    .int queue.batch.pending.length,
    .list (queue.batch.handles.map fun handle => .bool handle.isResolved)]

end CallQueue

end ContractClient
