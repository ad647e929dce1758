import ContractClient.Contract.CallQueue
import ContractClient.Event.Stream
import ContractClient.Transaction.Pipeline

/-!
# Deployed contracts

`ContractInstance` binds an interface to an address, a transport and maybe a signer. From it
transactions (`MethodCall`), read-only calls (`ViewCall`) and queries for events (`EventQuery`) are
drafted. Functions are found by name, by signature, or by an alias, which tells overloads apart.
-/

namespace ContractClient

/-- A deployed contract. -/
structure ContractInstance where
  abi : ContractAbi
  address : Address
  transport : Transport
  signer : Option Signer := none
  config : PipelineConfig := {}
  /-- Functions under names that the interface does not give them. -/
  aliases : List (String × ContractFunction) := []

namespace ContractInstance

/-- Adds an alias, in place of an earlier one with the same name. -/
def setAlias (aliases : List (String × ContractFunction)) (name : String)
    (function : ContractFunction) : List (String × ContractFunction) :=
  match aliases with
  | [] => [(name, function)]
  | (other, found) :: rest =>
    if other = name then (name, function) :: rest
    else (other, found) :: setAlias rest name function

/-- The aliases that are given by signatures, each of which must be in the interface. -/
def readAliases (abi : ContractAbi) : List (String × ContractFunction) →
    (entries : List (String × String)) → Outcome (List (String × ContractFunction))
  | aliases, [] => .ok aliases
  | aliases, (signature, name) :: entries =>
    match if signature.toList.contains '(' then (abi.function signature).toOption else none with
    | some function => readAliases abi (setAlias aliases name function) entries
    | none => Outcome.fault <| .validation <|
      "A method alias for " ++ Text.quote signature ++
        " was specified but this method does not exist"

/-- The contract at an address. Aliases are given as pairs of a signature and a name. -/
def create (abi : ContractAbi) (address : Value) (transport : Transport)
    (signer : Option Signer := none) (config : PipelineConfig := {})
    (aliases : List (String × String) := []) : Outcome ContractInstance := do
  let address ← Address.ofValue address
  let aliases ← readAliases abi [] aliases
  return { abi, address, transport, signer, config, aliases }

/-- The pipeline that sends the transactions of a contract, if it has a signer. -/
def pipeline (contract : ContractInstance) : Outcome Pipeline :=
  match contract.signer with
  | some signer => .ok {
      transport := contract.transport, signer, config := contract.config
      decoder := contract.abi.decodeError }
  | none => Outcome.fault
      (.validation "ContractInstance has no signer; sending transactions requires one")

def function (contract : ContractInstance) (key : String) : Outcome ContractFunction :=
  match contract.aliases.lookup key with
  | some function => .ok function
  | none => contract.abi.function key

/-- The name of a function: its last alias, if it has one. -/
def nameOf (contract : ContractInstance) (function : ContractFunction) : String :=
  match contract.aliases.reverse.find? fun entry => entry.2.canonical == function.canonical with
  | some (name, _) => name
  | none => function.name

/-- The signatures of all functions under their names. -/
def signatures (contract : ContractInstance) : Dict :=
  contract.abi.functions.foldl
    (fun entries function =>
      Dict.set entries (contract.nameOf function) (.text function.canonical)) []

def render (contract : ContractInstance) : String :=
  "ContractInstance(address=" ++ Text.quote contract.address.text ++ ", " ++
    contract.abi.render ++ ")"

end ContractInstance

/-- The draft of a transaction with a contract. -/
structure MethodCall where
  contract : ContractInstance
  /-- The function; none for a plain payment. -/
  function : Option ContractFunction
  data : Bytes
  sender : Option Address := none
  value : Value := .int 0
  gas : Value := .null
  nonce : Value := .null
  gasPrice : Value := .null
  maxFeePerGas : Value := .null
  maxPriorityFeePerGas : Value := .null
  policy : Option ConfirmationPolicy := none

namespace MethodCall

/-- What is set of a draft. -/
inductive Setting where
  | sender (value : Value)
  | gas (value : Value)
  | value (value : Value)
  | nonce (value : Value)
  | gasPrice (value : Value)
  | maxFeePerGas (value : Value)
  | maxPriorityFeePerGas (value : Value)
  | confirmations (count : Value)
  /-- Any policy, or none for the one that is configured. -/
  | policy (policy : Option ConfirmationPolicy)

def ofFunction (contract : ContractInstance) (key : String) (arguments : List Value) :
    Outcome MethodCall := do
  let function ← contract.function key
  return { contract, function := some function, data := ← function.encodeCall arguments }

/-- Drafts a transaction for the function that takes what no other function takes. -/
def fallback (contract : ContractInstance) (data : Bytes := []) : Outcome MethodCall :=
  if contract.abi.hasFallback || contract.abi.hasReceive then
    .ok { contract, function := none, data }
  else Outcome.fault (.validation "Contract declares no fallback or receive function")

def label (call : MethodCall) : String :=
  match call.function with
  | some function => function.canonical
  | none => "fallback"

/-- Whether the contract takes value with the transaction. -/
def isPayable (call : MethodCall) : Bool :=
  match call.function with
  | some function => function.isPayable
  | none => call.contract.abi.fallbackPayable || call.contract.abi.hasReceive

def withSender (call : MethodCall) (sender : Value) : Outcome MethodCall := do
  return { call with sender := some (← Address.ofValue sender "from_address") }

def withValue (call : MethodCall) (value : Value) : Outcome MethodCall :=
  if value.isTruthy && !call.isPayable then
    Outcome.fault (.validation (call.label ++ " is not payable"))
  else .ok { call with value }

/-- Sets how many blocks must follow. Nothing is checked. -/
def withConfirmations (call : MethodCall) (count : Value) : MethodCall :=
  let policy := call.policy.getD call.contract.config.confirmation
  { call with policy := some { policy with requiredConfirmations := count } }

def set (call : MethodCall) : Setting → Outcome MethodCall
  | .sender value => call.withSender value
  | .gas gas => .ok { call with gas }
  | .value value => call.withValue value
  | .nonce nonce => .ok { call with nonce }
  | .gasPrice gasPrice => .ok { call with gasPrice }
  | .maxFeePerGas maxFeePerGas => .ok { call with maxFeePerGas }
  | .maxPriorityFeePerGas maxPriorityFeePerGas => .ok { call with maxPriorityFeePerGas }
  | .confirmations count => .ok (call.withConfirmations count)
  | .policy policy => .ok { call with policy }

def senderOf (call : MethodCall) : Option Address :=
  call.sender <|> call.contract.signer.map Signer.address

def request (call : MethodCall) : Outcome TransactionRequest :=
  TransactionRequest.ofFields [
    ("from_address", Value.ofOption (TransactionRequest.addressText call.senderOf)),
    ("to", call.contract.address.toValue), ("value", call.value), ("data", .bytes call.data),
    ("gas", call.gas), ("gas_price", call.gasPrice), ("max_fee_per_gas", call.maxFeePerGas),
    ("max_priority_fee_per_gas", call.maxPriorityFeePerGas), ("nonce", call.nonce)]

/-- Runs the transaction as a call at a block, without sending it. -/
def dryRun (call : MethodCall) (block : Value := .text "latest") : Activity Value := do
  let decoder := call.contract.abi.decodeError
  let sender := Value.ofOption (TransactionRequest.addressText call.senderOf)
  let params ← callParams call.data call.contract.address.toValue
    { sender, value := call.value, block }
  (call.contract.transport.send "eth_call" params).andThen fun
    | .error failure => do Activity.fail (← Call.failureOf decoder failure)
    | .ok result => match call.function with
      | none => pure .null
      | some function => Activity.ofOutcome (decodeCallResult function result decoder)

/-- Sends the transaction and waits until it is confirmed. -/
def send (call : MethodCall) (rounds : Nat := Pipeline.roundLimit) :
    Activity PendingTransaction := do
  let pipeline ← call.contract.pipeline
  pipeline.send (← call.request) call.policy rounds

end MethodCall

/-- The draft of a read-only call of a contract. -/
structure ViewCall where
  contract : ContractInstance
  function : ContractFunction
  arguments : List Value
  block : Value := .text "latest"
  sender : Option Address := none

namespace ViewCall

def ofFunction (contract : ContractInstance) (key : String) (arguments : List Value) :
    Outcome ViewCall := do
  return { contract, function := ← contract.function key, arguments }

def withSender (call : ViewCall) (sender : Value) : Outcome ViewCall := do
  return { call with sender := some (← Address.ofValue sender "from_address") }

def set (call : ViewCall) (name : String) (value : Value) : Outcome ViewCall :=
  match name with
  | "block" => .ok { call with block := value }
  | "from_" => call.withSender value
  | _ => Outcome.condition .missingMember

def options (call : ViewCall) : CallOptions :=
  { sender := Value.ofOption (TransactionRequest.addressText call.sender), block := call.block }

def execute (call : ViewCall) : Activity Value :=
  Call.execute call.contract.transport call.contract.abi.decodeError call.function call.arguments
    call.contract.address.toValue call.options

def enqueue (call : ViewCall) (queue : CallQueue) : Outcome (CallQueue × Nat) :=
  queue.enqueueCall call.function call.arguments call.contract.address.toValue call.options

end ViewCall

/-- The draft of a query for events of a contract. -/
structure EventQuery where
  contract : ContractInstance
  source : EventSource
  /-- Values for the first indexed parameters. -/
  indexed : List Value := []
  fromBlock : Value := .null
  toBlock : Value := .null

namespace EventQuery

def ofEvent (contract : ContractInstance) (key : String) : Outcome EventQuery := do
  return { contract, source := ← EventSource.create (← contract.abi.event key) }

def set (query : EventQuery) (name : String) (value : Value) : Outcome EventQuery :=
  match name with
  | "from_block" => .ok { query with fromBlock := value }
  | "to_block" => .ok { query with toBlock := value }
  | _ => Outcome.condition .missingMember

def filter (query : EventQuery) : Outcome LogFilter :=
  LogFilter.build query.source.event [query.contract.address.toValue] query.indexed
    query.fromBlock query.toBlock

/-- Asks for the events once. -/
def fetch (query : EventQuery) : Activity (List DecodedEvent) := do
  query.source.query query.contract.transport (← query.filter)

/-- How the events are followed where nothing else is said. -/
def followOptions (query : EventQuery) : FollowOptions :=
  { pollInterval := query.contract.config.confirmation.pollInterval }

end EventQuery

end ContractClient
