import ContractClient.Abi.Topic
import ContractClient.Abi.Type.Reader

/-!
# Functions, events and custom errors

A function, an event or a custom error has a name and typed parameters, and is identified by the
digest of its canonical signature: functions and errors by the first four bytes (the selector),
events by all of it (the topic). Names of parameters take no part in it.
-/

namespace ContractClient

def selectorLength : Nat := 4

def selectorOf (signature : String) : Bytes :=
  (Keccak.digestText signature).take selectorLength

def topicOf (signature : String) : Bytes :=
  Keccak.digestText signature

/-- A parameter. Only parameters of events can be indexed. -/
structure Param where
  name : String := ""
  type : AbiType
  indexed : Bool := false
  deriving Inhabited, Repr

def Param.types (params : List Param) : List AbiType :=
  params.map Param.type

/-- A function of a contract. -/
structure ContractFunction where
  name : String
  inputs : List Param := []
  outputs : List Param := []
  mutability : String := "nonpayable"
  deriving Inhabited, Repr

namespace ContractFunction

/-- Whether a character may stand in a name; a digit may not start one. -/
def isNameCharacter (character : Char) : Bool :=
  character.isAlphanum || character == '_' || character == '$'

/-- The name and the list of parameters of a signature: a name and a list in parentheses on one
line, with blanks around them. -/
def split? (characters : List Char) : Option (List Char × List Char) :=
  let text := Text.strip characters
  let name := text.takeWhile isNameCharacter
  let list := (text.dropWhile isNameCharacter).dropWhile Text.isBlank
  if name.isEmpty || (name.head?.any Char.isDigit) then none
  else if list.length < 2 || list.head? != some '(' || list.getLast? != some ')' then none
  else if list.contains '\n' then none
  else some (name, list)

def ofText (text : String) (outputs : List Param := []) (mutability : String := "nonpayable") :
    Outcome ContractFunction := do
  match split? text.toList with
  | none => Outcome.fault (.abiParse text (some "expected name(type1,type2,...)"))
  | some (name, list) =>
    match ← AbiType.parse (String.ofList (list.filter (· != ' '))) with
    | .tuple components =>
      return {
        name := String.ofList name
        inputs := components.map fun type => { type }
        outputs, mutability }
    | _ =>
      Outcome.fault (.abiParse text (some "parameter list must be a parenthesized tuple"))

def canonical (function : ContractFunction) : String :=
  canonicalSignature function.name (Param.types function.inputs)

def selector (function : ContractFunction) : Bytes :=
  selectorOf function.canonical

/-- Whether a function promises not to change any state. -/
def isView (function : ContractFunction) : Bool :=
  function.mutability == "view" || function.mutability == "pure"

def isPayable (function : ContractFunction) : Bool :=
  function.mutability == "payable"

/-- The call data of a function: its selector and its encoded arguments. -/
def encodeCall (function : ContractFunction) (arguments : List Value) : Outcome Bytes := do
  return function.selector ++ (← encode (Param.types function.inputs) arguments)

def decodeInput (function : ContractFunction) (data : Bytes) : Outcome (List Value) :=
  if data.take selectorLength ≠ function.selector then
    Outcome.fault <| .decode
      s!"Call data does not start with the selector of {function.canonical}" "INVALID_VALUE"
  else decode (Param.types function.inputs) (data.drop selectorLength)

/-- The value in return data: nothing for a function without outputs, the value itself for one
output, and a tuple for several. -/
def decodeOutput (function : ContractFunction) (data : Bytes) : Outcome Value := do
  if function.outputs.isEmpty then return .null
  match ← decode (Param.types function.outputs) data with
  | [value] => return value
  | values => return .tuple values

end ContractFunction

/-- An event of a contract. -/
structure ContractEvent where
  name : String
  params : List Param := []
  anonymous : Bool := false
  deriving Inhabited, Repr

namespace ContractEvent

def canonical (event : ContractEvent) : String :=
  canonicalSignature event.name (Param.types event.params)

def topic (event : ContractEvent) : Bytes :=
  topicOf event.canonical

def indexedParams (event : ContractEvent) : List Param :=
  event.params.filter Param.indexed

/-- The parameters that are stored in the data of a log. -/
def dataParams (event : ContractEvent) : List Param :=
  event.params.filter (! ·.indexed)

/-- How many parameters can be indexed: an event that is not anonymous keeps a topic for itself. -/
def indexedLimit (anonymous : Bool) : Nat :=
  if anonymous then 4 else 3

/-- The event with the given parts, unless too many of its parameters are indexed. -/
def create (name : String) (params : List Param) (anonymous : Bool := false) :
    Outcome ContractEvent :=
  let event : ContractEvent := { name, params, anonymous }
  if indexedLimit anonymous < event.indexedParams.length then
    Outcome.fault <| .abiParse event.canonical
      (some s!"at most {indexedLimit anonymous} indexed params are allowed")
  else .ok event

end ContractEvent

/-- A custom error of a contract. -/
structure ContractError where
  name : String
  inputs : List Param := []
  deriving Inhabited, Repr

namespace ContractError

def canonical (error : ContractError) : String :=
  canonicalSignature error.name (Param.types error.inputs)

def selector (error : ContractError) : Bytes :=
  selectorOf error.canonical

def decode (error : ContractError) (data : Bytes) : Outcome (List Value) :=
  if data.take selectorLength ≠ error.selector then
    Outcome.fault (.decode s!"Revert data does not match error {error.canonical}" "INVALID_VALUE")
  else ContractClient.decode (Param.types error.inputs) (data.drop selectorLength)

def format (error : ContractError) (arguments : List Value) : String :=
  let rendered := List.zipWith renderArgument error.inputs arguments
  error.name ++ "(" ++ ", ".intercalate rendered ++ ")"
where
  /-- An argument with the name of its parameter, if it has one. -/
  renderArgument (param : Param) (argument : Value) : String :=
    if param.name.isEmpty then argument.render else param.name ++ "=" ++ argument.render

end ContractError

end ContractClient
