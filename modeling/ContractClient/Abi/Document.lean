import ContractClient.Abi.Signature
import ContractClient.Json.Reader
import ContractClient.Schema

/-!
# Interface documents

An interface document lists the functions, events and custom errors of a contract as entries. An
entry says what it declares, and gives names and types; older documents tell by two flags whether a
function changes state or accepts a value.
-/

namespace ContractClient

/-- A parameter as an entry gives it: its type is a text, perhaps with components. -/
inductive ParamEntry where
  | mk (name type : String) (indexed : Bool) (components : Option (List ParamEntry))
  deriving Inhabited

namespace ParamEntry

mutual

def read : Value → Checked ParamEntry
  | .dict entries =>
    mk <$> Schema.field entries "name" "" Schema.text <*>
      Schema.required entries "type" Schema.text <*>
      Schema.field entries "indexed" false Schema.flag <*>
      readComponents entries
  | _ => .issue .modelType

/-- Reads the components of a parameter with the given fields. -/
def readComponents : List (String × Value) → Checked (Option (List ParamEntry))
  | [] => .valid none
  | (key, value) :: entries =>
    if key = "components" then
      match value with
      | .null => .valid none
      | .list items => ((readAll 0 items).map some).under (.field key)
      | .tuple items => ((readAll 0 items).map some).under (.field key)
      | .sequence _ _ items => ((readAll 0 items).map some).under (.field key)
      | _ => (Checked.issue .listType).under (.field key)
    else readComponents entries

/-- Reads several parameters, each at its own position. -/
def readAll : (position : Nat) → List Value → Checked (List ParamEntry)
  | _, [] => .valid []
  | position, value :: values =>
    List.cons <$> (read value).under (.index position) <*> readAll (position + 1) values

end

mutual

def toValue : ParamEntry → Value
  | mk name type indexed components =>
    .dict [("name", .text name), ("type", .text type), ("indexed", .bool indexed),
      ("components", componentsValue components)]

def componentsValue : Option (List ParamEntry) → Value
  | none => .null
  | some params => .list (toValues params)

def toValues : List ParamEntry → List Value
  | [] => []
  | param :: params => toValue param :: toValues params

end

def toParam : ParamEntry → Outcome Param
  | mk name type indexed components => do
    return { name, indexed, type := ← AbiType.ofDocument (.text type) (componentsValue components) }

end ParamEntry

/-- An entry of an interface document. -/
structure AbiEntry where
  /-- What the entry declares. -/
  kind : String
  name : String
  inputs : List ParamEntry
  outputs : List ParamEntry
  stateMutability : Option String
  anonymous : Bool
  constant : Option Bool
  payable : Option Bool
  deriving Inhabited

namespace AbiEntry

/-- The name under which an entry gives its mutability. -/
def mutabilityKey (entries : Dict) : String :=
  if (Dict.get? entries "stateMutability").isSome then "stateMutability" else "state_mutability"

def read : Value → Checked AbiEntry :=
  Schema.model fun entries =>
    mk <$> Schema.field entries "type" "function" Schema.text <*>
      Schema.field entries "name" "" Schema.text <*>
      Schema.field entries "inputs" [] (Schema.list ParamEntry.read) <*>
      Schema.field entries "outputs" [] (Schema.list ParamEntry.read) <*>
      Schema.field entries (mutabilityKey entries) none (Schema.optional Schema.text) <*>
      Schema.field entries "anonymous" false Schema.flag <*>
      Schema.field entries "constant" none (Schema.optional Schema.flag) <*>
      Schema.field entries "payable" none (Schema.optional Schema.flag)

/-- The mutability of a function: the one that is given, or the one that the flags of older
documents mean. -/
def mutability (entry : AbiEntry) : String :=
  match entry.stateMutability.filter (! ·.isEmpty) with
  | some mutability => mutability
  | none =>
    if entry.constant = some true then "view"
    else if entry.payable = some true then "payable"
    else "nonpayable"

def toFunction (entry : AbiEntry) : Outcome ContractFunction := do
  let inputs ← entry.inputs.mapM ParamEntry.toParam
  let outputs ← entry.outputs.mapM ParamEntry.toParam
  return { name := entry.name, inputs, outputs, mutability := entry.mutability }

def toEvent (entry : AbiEntry) : Outcome ContractEvent := do
  ContractEvent.create entry.name (← entry.inputs.mapM ParamEntry.toParam) entry.anonymous

def toError (entry : AbiEntry) : Outcome ContractError := do
  return { name := entry.name, inputs := ← entry.inputs.mapM ParamEntry.toParam }

/-- Reads the entries of a document, the first of which has the given number. A malformed entry is
named by its number. -/
def readAll : (number : Nat) → List Value → Outcome (List AbiEntry)
  | _, [] => .ok []
  | number, value :: values =>
    match read value with
    | .valid entry => do
      return entry :: (← readAll (number + 1) values)
    | .invalid issues =>
      Outcome.fault { Fault.abiParse s!"<entry {number}>" with
        message := none, payload := .issues issues }

/-- The fault of a text that is no JSON. -/
def malformedText : Fault :=
  { Fault.abiParse "<json>" with message := none }

/-- The value that a document writes: texts and byte strings write JSON. -/
def parseDocument : Value → Outcome Value
  | .text characters => found (Json.read? characters.toList)
  | .bytes octets => found (Json.readBytes? octets)
  | .brokenText _ => Outcome.fault malformedText
  | other => .ok other
where
  /-- The value of a text that is JSON. -/
  found : Option Value → Outcome Value
    | some value => .ok value
    | none => Outcome.fault malformedText

/-- The entries of a document: a list of entries, or a build artifact that holds such a list. -/
def ofDocument (document : Value) : Outcome (List AbiEntry) := do
  let content ← match ← parseDocument document with
    | .dict entries => match Dict.get? entries "abi" with
      | some content => pure content
      | none => Outcome.fault (.abiParse "<artifact>" (some "artifact has no 'abi' key"))
    | content => pure content
  match content with
  | .list values => readAll 0 values
  | _ => Outcome.fault (.abiParse "<abi>" (some "ABI must be a list of entries"))

end AbiEntry

end ContractClient
