import ContractClient.Abi.Contract
import ContractClient.Exchange.Tagged

/-!
# Types and signatures as documents

A type is given by its text, by its text and components, or by a tree of constructors. Parameters,
functions and events are given by their parts. Each of them is described by a document that shows
what follows from the parts: canonical texts, selectors and topics.
-/

namespace ContractClient

namespace AbiType

mutual

def toTree : AbiType → Value
  | uint bits => .dict [("uint", .int bits)]
  | int bits => .dict [("int", .int bits)]
  | address => .text "address"
  | bool => .text "bool"
  | fixedBytes size => .dict [("fixed_bytes", .int size)]
  | bytes => .text "bytes"
  | string => .text "string"
  | fixedArray item length => .dict [("fixed_array", .list [toTree item, .digits length])]
  | array item => .dict [("array", toTree item)]
  | tuple components => .dict [("tuple", .list (toTrees components))]

def toTrees : List AbiType → List Value
  | [] => []
  | type :: types => toTree type :: toTrees types

end

/-- The type with the given name, if it has no parts. -/
def ofName : String → Outcome AbiType
  | "address" => .ok address
  | "bool" => .ok bool
  | "bytes" => .ok bytes
  | "string" => .ok string
  | _ => Outcome.condition .missingKey

def ofNumber (name : String) (number : Value) : Outcome AbiType :=
  match name with
  | "uint" => uintOf number
  | "int" => intOf number
  | "fixed_bytes" => fixedBytesOf number
  | _ => Outcome.condition .missingKey

mutual

/-- The type that a tree of constructors stands for, built from the innermost one on. -/
def ofTree : Value → Outcome AbiType
  | .text name => ofName name
  | .dict [("array", item)] => do arrayOf (← ofTree item)
  | .dict [("fixed_array", .list [item, length])] => do
    fixedArrayOf (← ofTree item) (Tagged.decode length)
  | .dict [("tuple", .list components)] => do tupleOf (← ofTrees components)
  | .dict [(name, number)] => ofNumber name (Tagged.decode number)
  | _ => Outcome.condition .wrongKind

def ofTrees : List Value → Outcome (List AbiType)
  | [] => .ok []
  | tree :: trees => do return (← ofTree tree) :: (← ofTrees trees)

end

def ofGiven (given : Value) : Outcome AbiType :=
  match given with
  | .dict _ =>
    if given.has "tree" then ofTree (given.part "tree")
    else ofDocument (given.untagged "type") (given.part "components")
  | content => ofDocument content .null

def listOfGiven (given : Value) : Outcome (List AbiType) :=
  given.parts.mapM ofGiven

def describe (type : AbiType) : Value :=
  let fields : Dict := [
    ("canonical", .text type.canonical), ("dynamic", .bool type.isDynamic),
    ("head_size", .digits type.headSize), ("tree", type.toTree)]
  match type, type.bounds? with
  | uint _, some (_, greatest) => .dict (Dict.set fields "max" (.digits greatest))
  | int _, some (least, greatest) =>
    .dict (fields ++ [("min", .digits least), ("max", .digits greatest)])
  | _, _ => .dict fields

end AbiType

namespace Param

/-- The parameter that a document gives: a type, a type and whether it is indexed, or its parts. -/
def ofGiven (given : Value) : Outcome Param :=
  match given with
  | .list [type, indexed] => do
    return { type := ← AbiType.ofGiven type, indexed := indexed.isTruthy }
  | .dict _ => do
    return {
      name := (given.part "name").asText, type := ← AbiType.ofGiven given
      indexed := (given.part "indexed").isTruthy }
  | type => do return { type := ← AbiType.ofGiven type }

def listOfGiven (given : Value) : Outcome (List Param) :=
  given.parts.mapM ofGiven

def describeAll (params : List Param) : Value :=
  .list (params.map fun param => .list [.text param.name, .text param.type.canonical])

end Param

namespace ContractFunction

/-- The function that a document gives, by its text or by its parts. -/
def ofGiven (given : Value) : Outcome ContractFunction := do
  let mutability := (given.part "mutability").asText?.getD "nonpayable"
  if given.has "text" then
    let outputs ← Param.listOfGiven (given.part "outputs")
    ofText (given.part "text").asText outputs mutability
  else
    let inputs ← Param.listOfGiven (given.part "inputs")
    let outputs ← Param.listOfGiven (given.part "outputs")
    return { name := (given.part "name").asText, inputs, outputs, mutability }

def describe (function : ContractFunction) : Value :=
  .dict [
    ("name", .text function.name), ("canonical", .text function.canonical),
    ("selector", .hex function.selector), ("mutability", .text function.mutability),
    ("view", .bool function.isView), ("payable", .bool function.isPayable),
    ("inputs", Param.describeAll function.inputs), ("outputs", Param.describeAll function.outputs)]

end ContractFunction

namespace ContractEvent

def ofGiven (given : Value) : Outcome ContractEvent := do
  create (given.part "name").asText (← Param.listOfGiven (given.part "params"))
    (given.part "anonymous").isTruthy

def describe (event : ContractEvent) : Value :=
  .dict [
    ("name", .text event.name), ("canonical", .text event.canonical), ("topic", .hex event.topic),
    ("anonymous", .bool event.anonymous),
    ("params", .list (event.params.map fun param =>
      .list [.text param.name, .text param.type.canonical, .bool param.indexed])),
    ("indexed", .list (event.indexedParams.map fun param => .text param.name)),
    ("data", .list (event.dataParams.map fun param => .text param.type.canonical))]

end ContractEvent

namespace ContractError

def describe (error : ContractError) : Value :=
  .dict [
    ("name", .text error.name), ("canonical", .text error.canonical),
    ("selector", .hex error.selector), ("inputs", Param.describeAll error.inputs)]

end ContractError

namespace ContractAbi

def describe (abi : ContractAbi) : Dict := [
  ("functions", .list (abi.functions.map ContractFunction.describe)),
  ("signatures", .list (abi.signatures.map .text)),
  ("events", .list (abi.events.map ContractEvent.describe)),
  ("errors", .list (abi.errors.map ContractError.describe)),
  ("constructor", Value.ofOption (abi.constructor?.map ContractFunction.describe)),
  ("fallback", .bool abi.hasFallback), ("receive", .bool abi.hasReceive),
  ("fallback_payable", .bool abi.fallbackPayable), ("repr", .text abi.render)]

end ContractAbi

end ContractClient
