import ContractClient.Event.Log
import ContractClient.Retry
import ContractClient.Transaction.Policy

/-!
# Following events

`EventSource.query` asks a node once for the logs of an event. `EventSource.follow` goes through the
blocks page by page and then keeps polling for new blocks. Pages end a number of blocks behind the
head of the chain, so that blocks have time to settle.
-/

namespace ContractClient

/-- An event whose logs are asked for. -/
structure EventSource where
  event : ContractEvent
  /-- The greatest number of blocks that one request covers. -/
  pageSize : Int
  deriving Inhabited

/-- How events are followed. -/
structure FollowOptions where
  /-- The seconds between two polls. -/
  pollInterval : Binary64 := defaultPollInterval
  /-- How many blocks pages end behind the head. -/
  confirmations : Int := 0
  deriving Inhabited

/-- How far the blocks of a filter were followed. -/
structure Cursor where
  head : Int
  /-- The block at which the next page starts. -/
  next : Int
  /-- The name of that block in a request, which keeps the kind in which a filter gave it. -/
  name : Value
  deriving Inhabited

namespace EventSource

def logger : String := "ethcontract.contract.events"

/-- The number of blocks that one request covers where nobody says otherwise. -/
def defaultPageSize : Int := 1000

def create (event : ContractEvent) (pageSize : Value := .int defaultPageSize) :
    Outcome EventSource := do
  let pageSize ← match pageSize with
    | .int size => pure size
    | .bool flag => pure (if flag then 1 else 0)
    | _ => Outcome.condition .wrongKind
  if pageSize < 1 then Outcome.fault (.validation "page_size must be positive")
  return { event, pageSize }

/-- The events in raw logs, without those of blocks that left the chain. -/
def decodeLogs (event : ContractEvent) : List Value → Outcome (List DecodedEvent)
  | [] => .ok []
  | raw :: rest => do
    let log ← EventLog.ofValue raw
    if log.removed then decodeLogs event rest
    else return (← decodeLog event log) :: (← decodeLogs event rest)

def query (source : EventSource) (transport : Transport) (filter : LogFilter) :
    Activity (List DecodedEvent) := do
  let params ← filter.toRpc
  let result ← transport.send "eth_getLogs" [params]
  let raw ← if result.isTruthy then result.elements else pure []
  let events ← decodeLogs source.event raw
  Activity.note .debug logger "Fetched logs"
    [("event", .text source.event.name), ("count", .int events.length)]
  return events

def headNumber (transport : Transport) : Activity Int := do
  Quantity.toInt (← transport.send "eth_blockNumber" [])

/-- The tags that stand for the newest block when a filter is followed. -/
def headTags : List String := ["latest", "pending", "safe", "finalized"]

def firstBlock (head : Int) : Value → Outcome Cursor
  | .null => .ok (atNumber head)
  | .int number => .ok (atNumber number)
  | .bool flag => .ok { head, next := if flag then 1 else 0, name := .bool flag }
  | .text tag =>
    if headTags.contains tag then .ok (atNumber head)
    else if tag = "earliest" then .ok (atNumber 0)
    else (Quantity.toInt (.text tag)).map atNumber
  | other => (Quantity.toInt other).map atNumber
where
  atNumber (number : Int) : Cursor := { head, next := number, name := .int number }

/-- The number of the last block of a filter, if it names one by a number. -/
def lastBlock? (filter : LogFilter) : Option Int :=
  match filter.toBlock with
  | .int number => some number
  | _ => none

/-- The last block of the page that starts at a cursor. -/
def pageEnd (source : EventSource) (settled : Int) (last : Option Int) (cursor : Cursor) : Int :=
  let stop := min settled (cursor.next + source.pageSize - 1)
  match last with
  | some last => min stop last
  | none => stop

/-- Fetches the next page, or waits for a new block if there is none yet. -/
def advance (source : EventSource) (transport : Transport) (filter : LogFilter)
    (options : FollowOptions) (cursor : Cursor) : Activity (Cursor × List DecodedEvent) := do
  let settled := cursor.head - options.confirmations
  if cursor.next ≤ settled then
    let stop := source.pageEnd settled (lastBlock? filter) cursor
    let events ← source.query transport (filter.withRange cursor.name (.int stop))
    return ({ cursor with next := stop + 1, name := .int (stop + 1) }, events)
  else
    Activity.sleep (secondsOf options.pollInterval)
    return ({ cursor with head := ← headNumber transport }, [])

/-- Collects events from a cursor on, after those found before. -/
def collect (source : EventSource) (transport : Transport) (filter : LogFilter)
    (options : FollowOptions) (limit : Nat) :
    (rounds : Nat) → Cursor → (found : List DecodedEvent) →
      Activity (List DecodedEvent × Option Failure)
  | 0, _, _ => Activity.suspended
  | rounds + 1, cursor, found =>
    if (lastBlock? filter).any (· < cursor.next) then pure (found, none)
    else
      (source.advance transport filter options cursor).andThen fun
        | .error failure => pure (found, some failure)
        | .ok (cursor, events) =>
          let found := found ++ events
          if limit ≤ found.length then pure (found.take limit, none)
          else collect source transport filter options limit rounds cursor found

def roundLimit : Nat := 1000000

/-- Follows the events that a filter selects up to the last block of the filter, until there are as
many as asked for, or until something fails: the events and the failure. -/
def follow (source : EventSource) (transport : Transport) (filter : LogFilter)
    (options : FollowOptions) (limit : Nat) (rounds : Nat := roundLimit) :
    Activity (List DecodedEvent × Option Failure) :=
  if limit = 0 then pure ([], none)
  else
    let start : Activity Cursor := do
      let head ← headNumber transport
      firstBlock head filter.fromBlock
    start.andThen fun
      | .error failure => pure ([], some failure)
      | .ok cursor => source.collect transport filter options limit rounds cursor []

end EventSource

end ContractClient
