import ContractClient.Abi.Signature
import ContractClient.Contract.Call

/-!
# Logs and filters

A contract reports events in logs. A log has topics, the first of which is the topic of its event
unless the event is anonymous; the others hold the indexed parameters in order. The data of a log
holds the other parameters. A filter selects logs by address, topics and blocks.
-/

namespace ContractClient

/-- A log of a contract. -/
structure EventLog where
  address : Address
  topics : List Bytes
  data : Bytes
  blockNumber : Option Int := none
  blockHash : Value := .null
  transactionHash : Value := .null
  transactionIndex : Option Int := none
  logIndex : Option Int := none
  /-- Whether the block of the log is no longer part of the chain. -/
  removed : Bool := false
  deriving Inhabited

namespace EventLog

/-- The number under a key, unless there is none. -/
def quantity (raw : Value) (key : String) : Outcome (Option Int) := do
  match ← raw.lookup key with
  | .null => return none
  | value => return some (← Quantity.toInt value)

def ofValue (raw : Value) : Outcome EventLog := do
  let address ← Address.ofValue (← raw.member "address")
  let topics ← (← (← raw.lookup "topics" (.list [])).elements).mapM Data.toBytes
  let data ← Data.toBytes (← raw.lookup "data" (.text "0x"))
  let blockNumber ← quantity raw "blockNumber"
  let blockHash ← raw.lookup "blockHash"
  let transactionHash ← raw.lookup "transactionHash"
  let transactionIndex ← quantity raw "transactionIndex"
  let logIndex ← quantity raw "logIndex"
  let removed ← raw.lookup "removed" (.bool false)
  return {
    address, topics, data, blockNumber, blockHash, transactionHash, transactionIndex, logIndex
    removed := removed.isTruthy }

end EventLog

/-- A log with its values. -/
structure DecodedEvent where
  name : String
  /-- The values by the names of their parameters. -/
  fields : Dict
  /-- The values in the order of the parameters. -/
  values : List Value
  log : EventLog
  deriving Inhabited

namespace DecodedEvent

/-- The value at a position; negative positions count from the end. -/
def atPosition (event : DecodedEvent) (position : Int) : Outcome Value :=
  let position := if position < 0 then position + event.values.length else position
  match if position < 0 then none else event.values[position.toNat]? with
  | some value => .ok value
  | none => Outcome.condition .missingIndex

def get (event : DecodedEvent) : Value → Outcome Value
  | .int position => event.atPosition position
  | .bool flag => event.atPosition (if flag then 1 else 0)
  | .text name => (Value.dict event.fields).member name
  | .list _ => Outcome.condition .wrongKind
  | .dict _ => Outcome.condition .wrongKind
  | .buffer _ => Outcome.condition .wrongKind
  | other => .error (.condition .missingKey other.display)

end DecodedEvent

/-- The values of parameters: those of indexed ones come from topics, the others from the data. -/
def valuesOfLog : List Param → (topics : List Bytes) → (values : List Value) →
    Outcome (List Value)
  | [], _, _ => .ok []
  | param :: params, topics, values => do
    if param.indexed then
      match topics with
      | [] => .ok []
      | topic :: topics =>
        let value ←
          if param.type.isValueType then decodeTopic param.type topic else pure (.hash topic)
        return value :: (← valuesOfLog params topics values)
    else
      match values with
      | [] => .ok []
      | value :: values => return value :: (← valuesOfLog params topics values)

/-- The name of a parameter at a position; parameters without a name are numbered. -/
def fieldName (position : Nat) (param : Param) : String :=
  if param.name.isEmpty then s!"arg{position}" else param.name

/-- The names of parameters, the first of which has the given position. -/
def fieldNames : (position : Nat) → List Param → List String
  | _, [] => []
  | position, param :: params => fieldName position param :: fieldNames (position + 1) params

def decodeLog (event : ContractEvent) (log : EventLog) : Outcome DecodedEvent := do
  let own := if event.anonymous then 0 else 1
  let expected := event.indexedParams.length + own
  if log.topics.length ≠ expected then
    Outcome.fault <| .decode
      s!"{event.canonical} expects {expected} topics, log has {log.topics.length}" "INVALID_VALUE"
  if !event.anonymous && log.topics.head? != some event.topic then
    Outcome.fault (.decode s!"Log topic does not match {event.canonical}" "INVALID_VALUE")
  let dataValues ← decode (Param.types event.dataParams) log.data
  let values ← valuesOfLog event.params (log.topics.drop own) dataValues
  let fields := (fieldNames 0 event.params).zip values
  return { name := event.name, fields := Dict.merge [] fields, values, log }

/-- What logs are asked for. -/
structure LogFilter where
  addresses : List String := []
  /-- The topics in order; none matches any topic. -/
  topics : List (Option Bytes) := []
  /-- The first and the last block: a number, a tag, or null. -/
  fromBlock : Value := .null
  toBlock : Value := .null
  deriving Inhabited

namespace LogFilter

def withRange (filter : LogFilter) (fromBlock toBlock : Value) : LogFilter :=
  { filter with fromBlock, toBlock }

/-- The block that a filter names, as nodes take it, if it names one. -/
def blockBound : Value → Outcome (Option Value)
  | .null => .ok none
  | block => (blockParam block).map some

/-- The addresses of a filter as nodes take them, if there are any. -/
def addressBound (filter : LogFilter) : Option Value :=
  match filter.addresses with
  | [] => none
  | [address] => some (.text address)
  | addresses => some (.list (addresses.map .text))

def toRpc (filter : LogFilter) : Outcome Value := do
  let topics := filter.topics.map fun topic => Value.ofText? (topic.map Data.ofBytes)
  let params := (Dict.setSome [] "address" filter.addressBound).set "topics" (.list topics)
  let params := params.setSome "fromBlock" (← blockBound filter.fromBlock)
  return .dict (params.setSome "toBlock" (← blockBound filter.toBlock))

/-- The topic of an indexed parameter that is bound to a value. A hash stands for itself. -/
def topicOfValue (type : AbiType) : Value → Outcome Bytes
  | .hash digest => .ok digest
  | value => encodeTopic type value

/-- The topics of indexed parameters, the first of which has the given position. Parameters without
a value match anything, and none may be bound behind them. -/
def topicsFor (event : ContractEvent) : (position : Nat) → (isOpen : Bool) → List Param →
    List Value → Outcome (List (Option Bytes))
  | _, _, [], _ => .ok []
  | position, isOpen, param :: params, values => do
    match values.headD .null with
    | .null => return none :: (← topicsFor event (position + 1) true params values.tail)
    | value =>
      if isOpen then
        let label := if param.name.isEmpty then toString position else param.name
        Outcome.fault <| .validation s!"Indexed param {label} is bound after a wildcard"
          [("event", .text event.canonical), ("position", .int position)]
      let topic ← topicOfValue param.type value
      return some topic :: (← topicsFor event (position + 1) isOpen params values.tail)

/-- The filter for logs of an event at some addresses, with values for its first indexed
parameters. -/
def build (event : ContractEvent) (addresses values : List Value := [])
    (fromBlock toBlock : Value := .null) : Outcome LogFilter := do
  let indexed := event.indexedParams
  if indexed.length < values.length then
    Outcome.fault <| .validation
      s!"{event.name} has {indexed.length} indexed params, got {values.length} values"
  let own := if event.anonymous then [] else [some event.topic]
  let topics ← topicsFor event 0 false indexed values
  let addresses ← addresses.mapM fun address => (Address.ofValue address).map Address.text
  return { addresses, topics := own ++ topics, fromBlock, toBlock }

end LogFilter

end ContractClient
