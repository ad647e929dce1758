import ContractClient.Event.Stream
import ContractClient.Exchange.Failure

/-!
# Calls and events as documents

The options of calls, filters and followed events in documents, and how logs and events are
described.
-/

namespace ContractClient

def CallOptions.ofGiven (given : Value) : CallOptions :=
  { sender := given.untagged "from_address", value := given.untagged "value" (.int 0)
    block := given.untagged "block" (.text "latest") }

def EventLog.describe (log : EventLog) : Value :=
  .dict [
    ("address", log.address.toValue), ("topics", .list (log.topics.map .hex)),
    ("data", .hex log.data), ("block_number", .digits? log.blockNumber),
    ("block_hash", log.blockHash), ("transaction_hash", log.transactionHash),
    ("transaction_index", .digits? log.transactionIndex), ("log_index", .digits? log.logIndex),
    ("removed", .bool log.removed)]

def LogFilter.ofGiven (given : Value) : LogFilter :=
  { addresses := (given.part "addresses").parts.map Value.asText
    topics := (given.part "topics").parts.map fun topic => topic.present?.map Value.asBytes
    fromBlock := given.untagged "from_block", toBlock := given.untagged "to_block" }

def DecodedEvent.describe (event : DecodedEvent) : Value :=
  .dict [
    ("name", .text event.name),
    ("fields", .list (event.fields.map fun (name, value) =>
      .list [.text name, Tagged.encode value])),
    ("values", .list (Tagged.encodeAll event.values)), ("block", .digits? event.log.blockNumber)]

def DecodedEvent.describeAll (events : List DecodedEvent) : Value :=
  .list (events.map DecodedEvent.describe)

/-- The events that were followed, and what ended that, as a document. -/
def DecodedEvent.describeFollowed (found : List DecodedEvent × Option Failure) : Value :=
  .dict [
    ("events", describeAll found.1),
    ("stopped", Value.ofOption (found.2.map fun failure => .dict failure.toFields))]

/-- The options that a document gives, in place of others. -/
def FollowOptions.ofGiven (given : Value) (default : FollowOptions := {}) : FollowOptions :=
  { pollInterval := match given.untagged "poll_interval" with
      | .int number => Binary64.ofInt number
      | .float number => number
      | _ => default.pollInterval
    confirmations := (given.untagged "confirmations").asInt }

end ContractClient
