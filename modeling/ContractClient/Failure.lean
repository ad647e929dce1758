import ContractClient.Condition
import ContractClient.Value

/-!
# Faults and failures

A `Fault` is a failure that this library reports itself: a kind, a code that programs can test, a
message, and details. A `Failure` is any way in which a computation can end without a result: a
fault, a model whose fields do not validate, or a condition met from outside.

The message of a fault is absent where its code and details describe it completely.
-/

namespace ContractClient

/-- The kinds of faults. -/
inductive FaultKind where
  | general
  | validation
  | abi | abiParse | encode | decode
  | rpc | rpcTransport
  | batch | batchDesync
  | signer | signerUnavailable
  | callReverted
  | pipeline | confirmationTimeout | transactionReverted
  deriving DecidableEq, Repr, Inhabited

namespace FaultKind

def label : FaultKind → String
  | general => "EthContractError"
  | validation => "ValidationError"
  | abi => "AbiError"
  | abiParse => "AbiParseError"
  | encode => "EncodeError"
  | decode => "DecodeError"
  | rpc => "RpcError"
  | rpcTransport => "RpcTransportError"
  | batch => "BatchError"
  | batchDesync => "BatchDesyncError"
  | signer => "SignerError"
  | signerUnavailable => "SignerUnavailableError"
  | callReverted => "CallRevertedError"
  | pipeline => "PipelineError"
  | confirmationTimeout => "ConfirmationTimeoutError"
  | transactionReverted => "TransactionRevertedError"

/-- The code of a fault whose maker names none. -/
def defaultCode : FaultKind → String
  | general => "ETHCONTRACT_ERROR"
  | validation => "VALIDATION_ERROR"
  | abi => "ABI_ERROR"
  | abiParse => "ABI_PARSE_ERROR"
  | encode => "ENCODE_ERROR"
  | decode => "DECODE_ERROR"
  | rpc => "RPC_ERROR"
  | rpcTransport => "RPC_TRANSPORT_ERROR"
  | batch => "BATCH_ERROR"
  | batchDesync => "BATCH_DESYNC"
  | signer => "SIGNER_ERROR"
  | signerUnavailable => "SIGNER_UNAVAILABLE"
  | callReverted => "CALL_REVERTED"
  | pipeline => "PIPELINE_ERROR"
  | confirmationTimeout => "CONFIRMATION_TIMEOUT"
  | transactionReverted => "TRANSACTION_REVERTED"

/-- A kind and all kinds above it, from the kind itself to the most general one. -/
def lineage : FaultKind → List FaultKind
  | general => [general]
  | validation => [validation, general]
  | abi => [abi, general]
  | abiParse => [abiParse, abi, general]
  | encode => [encode, abi, general]
  | decode => [decode, abi, general]
  | rpc => [rpc, general]
  | rpcTransport => [rpcTransport, rpc, general]
  | batch => [batch, general]
  | batchDesync => [batchDesync, batch, general]
  | signer => [signer, general]
  | signerUnavailable => [signerUnavailable, signer, general]
  | callReverted => [callReverted, general]
  | pipeline => [pipeline, general]
  | confirmationTimeout => [confirmationTimeout, pipeline, general]
  | transactionReverted => [transactionReverted, pipeline, general]

def isA (kind other : FaultKind) : Bool :=
  kind.lineage.contains other

def all : List FaultKind := [
  general, validation, abi, abiParse, encode, decode, rpc, rpcTransport, batch, batchDesync, signer,
  signerUnavailable, callReverted, pipeline, confirmationTimeout, transactionReverted]

def ofLabel? (name : String) : Option FaultKind :=
  all.find? fun kind => label kind == name

end FaultKind

/-- What can be wrong with one field of a model. -/
inductive IssueKind where
  | missing
  | stringType | stringUnicode | listType | dictType | modelType
  | boolType | boolParsing
  | intType | intParsing | intParsingSize | intFromFloat | finiteNumber
  | floatType | floatParsing
  | greaterThan | greaterThanEqual
  | valueError
  | frozenInstance
  deriving DecidableEq, Repr, Inhabited

def IssueKind.label : IssueKind → String
  | missing => "missing"
  | stringType => "string_type"
  | stringUnicode => "string_unicode"
  | listType => "list_type"
  | dictType => "dict_type"
  | modelType => "model_type"
  | boolType => "bool_type"
  | boolParsing => "bool_parsing"
  | intType => "int_type"
  | intParsing => "int_parsing"
  | intParsingSize => "int_parsing_size"
  | intFromFloat => "int_from_float"
  | finiteNumber => "finite_number"
  | floatType => "float_type"
  | floatParsing => "float_parsing"
  | greaterThan => "greater_than"
  | greaterThanEqual => "greater_than_equal"
  | valueError => "value_error"
  | frozenInstance => "frozen_instance"

/-- A step of the way from a model to one of its parts. -/
inductive PathStep where
  | field (name : String)
  | index (position : Nat)
  deriving DecidableEq, Repr, Inhabited

/-- Something wrong with one part of a model. -/
structure Issue where
  path : List PathStep
  kind : IssueKind
  deriving DecidableEq, Repr, Inhabited

/-- What a fault carries for programs besides its code. -/
inductive FaultPayload where
  | nothing
  /-- The code and the data of a node's error object. -/
  | rpc (code data : Value)
  /-- The reason and the payload of a reverted call. -/
  | revert (reason : Option String) (data : Option Bytes)
  /-- The issues of a malformed document entry. -/
  | issues (issues : List Issue)
  deriving Inhabited

/-- A failure that this library reports. -/
structure Fault where
  kind : FaultKind
  code : String
  message : Option String
  txHash : Value := .null
  details : Dict := []
  payload : FaultPayload := .nothing
  deriving Inhabited

namespace Fault

/-- A fault with the default code of its kind unless another one is named. -/
def make (kind : FaultKind) (message : String) (code : String := "") (txHash : Value := .null)
    (details : Dict := []) : Fault :=
  { kind, message := some message, txHash, details,
    code := if code.isEmpty then kind.defaultCode else code }

/-- A caller's input that is rejected before anything is done. -/
def validation (message : String) (details : Dict := []) : Fault :=
  make .validation message "" .null details

def abiParse (source : String) (reason : Option String := none) (details : Dict := []) : Fault :=
  let reason := reason.filter (! ·.isEmpty)
  let message := "Invalid ABI definition: " ++ Text.quote source
  let details := (details.set "source" (.text source)).setSome "reason" (reason.map .text)
  match reason with
  | none => make .abiParse message "" .null details
  | some reason => make .abiParse (message ++ " (" ++ reason ++ ")") "" .null details

def encode (message : String) (abiType : String := "") (details : Dict := []) : Fault :=
  make .encode message "" .null <|
    if abiType.isEmpty then details else details.set "abi_type" (.text abiType)

def decode (message : String) (code : String := "") (abiType : String := "")
    (offset : Option Value := none) (details : Dict := []) : Fault :=
  let details := if abiType.isEmpty then details else details.set "abi_type" (.text abiType)
  make .decode message code .null (details.setSome "offset" offset)

/-- A read that needs more bytes than there are. -/
def outOfBounds (abiType : String) (offset needed available : Int) : Fault :=
  decode
    s!"Reading {needed} bytes at offset {offset} for {abiType} exceeds buffer of {available} bytes"
    "OUT_OF_BOUNDS" abiType (some (.int offset))
    [("needed", .int needed), ("available", .int available)]

/-- A value, unless it is null. -/
def present? : Value → Option Value
  | .null => none
  | value => some value

/-- A fault that a node reports, or that keeps a node from answering. -/
def rpc (message : String) (kind : FaultKind := .rpc) (method : String := "")
    (params : Option Value := none) (rpcCode data : Value := .null) (details : Dict := []) :
    Fault :=
  let details := if method.isEmpty then details else details.set "method" (.text method)
  let details := details.setSome "params" params
  let details := details.setSome "rpc_code" (present? rpcCode)
  let details := details.setSome "data" (present? data)
  { make kind message "" .null details with payload := .rpc rpcCode data }

/-- A request that produced no answer at all. -/
def rpcTransport (message : String) (method : String := "") (params : Option Value := none)
    (details : Dict := []) : Fault :=
  rpc message .rpcTransport method params .null .null details

/-- A batch whose replies do not belong to its requests. -/
def batchDesync (message : String) (expected received : Option (List Value) := none) : Fault :=
  let details := Dict.setSome [] "expected_ids" (expected.map .list)
  make .batchDesync message "" .null (details.setSome "received_ids" (received.map .list))

def signer (message : String) (kind : FaultKind := .signer) (code : String := "")
    (address : String := "") (details : Dict := []) : Fault :=
  make kind message code .null <|
    if address.isEmpty then details else details.set "address" (.text address)

/-- A transaction field that must be set before signing. -/
def missingField (field : String) (address : String := "") : Fault :=
  signer s!"Transaction field '{field}' must be set before signing" .signer "MISSING_FIELD" address
    [("field", .text field)]

/-- A read-only call that reverted. -/
def callReverted (reason : Option String) (data : Option Bytes := none) (details : Dict := []) :
    Fault :=
  let details := details.setSome "data" (data.map fun octets => .text (Hex.text octets))
  let message := match reason with
    | some reason => "Call reverted: " ++ reason
    | none => "Call reverted (reason unavailable)"
  { make .callReverted message "" .null details with payload := .revert reason data }

/-- A confirmation wait that reached its time or block bound. -/
def confirmationTimeout (txHash : Value) (timeout blocks : Option Value := none)
    (details : Dict := []) : Fault :=
  let details := (details.setSome "timeout" timeout).setSome "blocks" blocks
  let bound := match timeout with
    | some timeout => timeout.display ++ "s"
    | none => (Value.ofOption blocks).display ++ " blocks"
  make .confirmationTimeout ("Transaction not confirmed within " ++ bound) "" txHash details

def transactionReverted (txHash : Value) (reason : Option String := none)
    (receipt : Option Dict := none) : Fault :=
  let details := match receipt with
    | none => []
    | some receipt => [("block_number", .ofOption (receipt.get? "blockNumber")),
        ("gas_used", .ofOption (receipt.get? "gasUsed"))]
  let message := match reason.filter (! ·.isEmpty) with
    | some reason => "Transaction reverted: " ++ reason
    | none => "Transaction reverted (reason unavailable)"
  { make .transactionReverted message "" txHash details with payload := .revert reason none }

/-- The first characters of a transaction hash. -/
def shortHash : Value → String
  | .text hash => String.ofList (hash.toList.take 10)
  | .list items => (Value.list (items.take 10)).render
  | other => other.display

/-- A fault in one line: its code, its message and the start of its transaction hash. -/
def summary (fault : Fault) : String :=
  let main := s!"[{fault.code}] " ++ fault.message.getD ""
  if fault.txHash.isTruthy then main ++ " (tx: " ++ shortHash fault.txHash ++ "...)" else main

def render (fault : Fault) : String :=
  fault.kind.label ++ "(message=" ++ (Value.ofText? fault.message).render ++
    ", code=" ++ Text.quote fault.code ++ ", tx_hash=" ++ fault.txHash.render ++
    ", details=" ++ (Value.dict fault.details).render ++ ")"

def toDict (fault : Fault) : Dict :=
  [("error", .text fault.kind.label), ("code", .text fault.code),
    ("message", .ofText? fault.message), ("tx_hash", fault.txHash),
    ("details", .dict fault.details)]

end Fault

/-- A way in which a computation ends without a result. -/
inductive Failure where
  | fault (fault : Fault)
  | invalidModel (issues : List Issue)
  | condition (condition : Condition) (text : String)
  deriving Inhabited

/-- A class of failures that can be handled together. -/
inductive FailureClass where
  | fault (kind : FaultKind)
  | condition (condition : Condition)
  deriving DecidableEq, Repr, Inhabited

/-- The class of failures that are reported under a name or below it. -/
def FailureClass.ofLabel? (name : String) : Option FailureClass :=
  ((FaultKind.ofLabel? name).map fault) <|> ((Condition.ofLabel? name).map condition)

namespace Failure

def cancelled : Failure := .condition .cancelled ""

/-- Whether a failure is an ordinary one, which handlers of all failures handle; a cancellation
is not. -/
def isOrdinary : Failure → Bool
  | .condition met _ => met.isA .anything
  | _ => true

def belongsTo : Failure → FailureClass → Bool
  | .fault reported, .fault kind => reported.kind.isA kind
  | .fault _, .condition category => category == .anything
  | .invalidModel _, .condition category => Condition.badValue.isA category
  | .invalidModel _, .fault _ => false
  | .condition met _, .condition category => met.isA category
  | .condition _ _, .fault _ => false

def label : Failure → String
  | .fault reported => reported.kind.label
  | .invalidModel _ => "ValidationError"
  | .condition met _ => met.label

/-- A failure in one line. A missing key is shown as messages show texts. -/
def summary : Failure → String
  | .fault reported => reported.summary
  | .invalidModel _ => ""
  | .condition .missingKey text => Text.quote text
  | .condition _ text => text

end Failure

abbrev Outcome (α : Type) := Except Failure α

namespace Outcome

def fault {α : Type} (fault : Fault) : Outcome α := .error (.fault fault)

def condition {α : Type} (condition : Condition) : Outcome α := .error (.condition condition "")

end Outcome

namespace Value

/-- What messages show of a value, provided that it can be shown. -/
def rendered (value : Value) : Outcome String :=
  if value.isShowable then .ok value.render else Outcome.condition .badValue

/-- A text as itself, any other value as messages show it, provided that it can be shown. -/
def displayed (value : Value) : Outcome String :=
  if value.isShowable then .ok value.display else Outcome.condition .badValue

/-- The member of a value under a key. Only dictionaries have members. -/
def member (value : Value) (key : String) : Outcome Value :=
  match value with
  | dict entries => match Dict.get? entries key with
    | some member => .ok member
    | none => .error (.condition .missingKey key)
  | _ => Outcome.condition .wrongKind

/-- The member of a dictionary under a key, or a default where the key is not set. -/
def lookup (value : Value) (key : String) (default : Value := .null) : Outcome Value :=
  match value with
  | dict entries => .ok ((Dict.get? entries key).getD default)
  | _ => Outcome.condition .missingMember

def elements : Value → Outcome (List Value)
  | list items => .ok items
  | tuple items => .ok items
  | sequence _ _ items => .ok items
  | dict entries => .ok (entries.map fun entry => .text entry.1)
  | text value => .ok (value.toList.map fun character => .text (String.singleton character))
  | brokenText codePoints => .ok (codePoints.map fun codePoint => .brokenText [codePoint])
  | bytes octets => .ok (octets.map fun octet => .int octet.toNat)
  | buffer octets => .ok (octets.map fun octet => .int octet.toNat)
  | _ => Outcome.condition .wrongKind

end Value

end ContractClient
