import ContractClient.Abi.Contract
import ContractClient.Rpc.Transport
import ContractClient.Wire.Address
import ContractClient.Wire.Quantity

/-!
# Read-only calls

A call runs a function without creating a transaction. Its result is the decoded return data, or the
failure of a call that reverted, with the reason that its payload gives.
-/

namespace ContractClient

/-- A block as nodes take it: a number becomes a quantity, a tag stays as it is. -/
def blockParam : Value → Outcome Value
  | .int number => (Quantity.ofValue (.int number)).map .text
  | tag => .ok tag

/-- How a call is made. -/
structure CallOptions where
  /-- The caller; null for none. -/
  sender : Value := .null
  value : Value := .int 0
  block : Value := .text "latest"
  deriving Inhabited

/-- The parameters of a call of the contract at an address. -/
def callParams (data : Bytes) (recipient : Value) (options : CallOptions := {}) :
    Outcome (List Value) := do
  let recipient ← Address.ofValue recipient "to"
  let call := [("to", recipient.toValue), ("data", Value.text (Data.ofBytes data))]
  let call ← match options.sender with
    | .null => pure call
    | sender => do pure (Dict.set call "from" (← Address.ofValue sender "from_address").toValue)
  let call ←
    if options.value.isTruthy then do
      pure (Dict.set call "value" (.text (← Quantity.ofValue options.value)))
    else pure call
  return [.dict call, ← blockParam options.block]

namespace Fault

def revertCode : Int := 3

/-- Whether a text contains a word, in any case of ASCII letters. -/
def mentions (word : String) (text : List Char) : Bool :=
  match text with
  | [] => word.isEmpty
  | character :: rest =>
    word.toList.isPrefixOf ((character :: rest).map Char.toLower) || mentions word rest

def isRevert (fault : Fault) : Bool :=
  match fault.payload with
  | .rpc code _ => code.equalsInt revertCode || mentions "revert" (fault.message.getD "").toList
  | _ => false

def revertPayload? (fault : Fault) : Option Bytes :=
  match fault.payload with
  | .rpc _ data => ContractClient.revertPayload? data
  | _ => none

def toRevert (fault : Fault) (decoder : RevertDecoder) : Outcome Fault := do
  let payload := fault.revertPayload?
  return .callReverted (← decoder (payload.getD [])) payload

def reason? (fault : Fault) : Option String :=
  match fault.payload with
  | .revert reason _ => reason
  | _ => none

end Fault

/-- The value in the result of a call. The payload of a revert is no return data, even where a node
returns it as a result. -/
def decodeCallResult (function : ContractFunction) (result : Value)
    (decoder : RevertDecoder := .standard) : Outcome Value := do
  let raw ← Data.toBytes (match result with
    | .null => .text "0x"
    | result => result)
  if !function.outputs.isEmpty && raw.isEmpty then
    Outcome.fault (.callReverted none (some raw))
  if raw.length % Bytes.wordLength = selectorLength then
    match ← decoder raw with
    | some reason => Outcome.fault (.callReverted (some reason) (some raw))
    | none => pure ()
  function.decodeOutput raw

namespace Call

def logger : String := "ethcontract.contract.calls"

/-- The failure of a call that a node did not execute: a revert, or what kept the node from it. -/
def failureOf (decoder : RevertDecoder) (failure : Failure) : Outcome Failure :=
  match failure with
  | .fault fault =>
    if fault.kind.isA .rpc && fault.isRevert then
      (fault.toRevert decoder).map Failure.fault
    else .ok failure
  | _ => .ok failure

/-- The value of a call whose result, or failure, is known. -/
def conclude (function : ContractFunction) (decoder : RevertDecoder) (result : Outcome Value) :
    Outcome Value :=
  match result with
  | .ok value => decodeCallResult function value decoder
  | .error failure => do
    throw (← failureOf decoder failure)

def paramsOf (function : ContractFunction) (arguments : List Value) (recipient : Value)
    (options : CallOptions) : Outcome (List Value) := do
  callParams (← function.encodeCall arguments) recipient options

def noteRevert (function : ContractFunction) (failure : Failure) : Activity Unit :=
  match failure with
  | .fault fault =>
    if fault.kind.isA .callReverted then
      Activity.note .debug logger "Call reverted"
        [("function", .text function.canonical), ("reason", .ofText? fault.reason?)]
    else pure ()
  | _ => pure ()

def execute (transport : Transport) (decoder : RevertDecoder) (function : ContractFunction)
    (arguments : List Value) (recipient : Value) (options : CallOptions := {}) :
    Activity Value := do
  if options.value.isTruthy && !function.isPayable then
    Activity.fault (.validation (function.canonical ++ " is not payable"))
  let params ← paramsOf function arguments recipient options
  (transport.send "eth_call" params).andThen fun
    | .ok result => Activity.ofOutcome (decodeCallResult function result decoder)
    | .error failure => do
      let failure ← failureOf decoder failure
      noteRevert function failure
      Activity.fail failure

end Call

end ContractClient
