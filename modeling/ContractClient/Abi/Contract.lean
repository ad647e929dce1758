import ContractClient.Abi.Document
import ContractClient.Abi.Revert

/-!
# Contract interfaces

`ContractAbi` holds the functions, events and custom errors that a document declares. Functions and
events that share a name stand together, at the place of the first of them. They are found by their
name, if only one has it, or by their canonical signature; custom errors are found by their
selector.
-/

namespace ContractClient

/-- Declarations by name: every name with what was declared under it, in order. -/
abbrev Declarations (α : Type) := List (String × List α)

namespace Declarations

/-- Adds a declaration at the end of those of its name. -/
def insert {α : Type} (declarations : Declarations α) (name : String) (declaration : α) :
    Declarations α :=
  match declarations with
  | [] => [(name, [declaration])]
  | (other, group) :: rest =>
    if other = name then (other, group ++ [declaration]) :: rest
    else (other, group) :: insert rest name declaration

def named {α : Type} (declarations : Declarations α) (name : String) : List α :=
  ((declarations.find? fun entry => entry.1 == name).map Prod.snd).getD []

def all {α : Type} (declarations : Declarations α) : List α :=
  declarations.flatMap Prod.snd

/-- The part of a signature before its parentheses. -/
def nameOf (key : String) : String :=
  String.ofList (key.toList.takeWhile (· != '('))

/-- Finds a declaration by its signature, in which spaces do not count, or by its name. -/
def resolve {α : Type} (declarations : Declarations α) (canonical : α → String)
    (kind key : String) : Outcome α :=
  if key.toList.contains '(' then
    let signature := String.ofList (key.toList.filter (· != ' '))
    match (declarations.named (nameOf key)).find? fun found => canonical found == signature with
    | some found => .ok found
    | none => Outcome.fault (.validation s!"Unknown {kind} signature: {key}")
  else
    match declarations.named key with
    | [found] => .ok found
    | [] => Outcome.fault (.validation s!"Unknown {kind}: {key}")
    | several =>
      let options := several.map canonical
      Outcome.fault <| .validation
        (s!"Ambiguous {kind} {Text.quote key}; use one of: " ++ ", ".intercalate options)
        [("overloads", .list (options.map .text))]

end Declarations

/-- The interface of a contract. -/
structure ContractAbi where
  functionsByName : Declarations ContractFunction := []
  eventsByName : Declarations ContractEvent := []
  errorsBySelector : List (Bytes × ContractError) := []
  constructor? : Option ContractFunction := none
  hasFallback : Bool := false
  hasReceive : Bool := false
  fallbackPayable : Bool := false
  deriving Inhabited

/-- Explains the payload of a revert, as far as that is possible. -/
abbrev RevertDecoder := Bytes → Outcome (Option String)

def RevertDecoder.standard : RevertDecoder :=
  fun data => .ok (decodeRevertReason data)

namespace ContractAbi

/-- Declares a custom error, in place of an earlier one with the same selector. -/
def insertError (errors : List (Bytes × ContractError)) (error : ContractError) :
    List (Bytes × ContractError) :=
  match errors with
  | [] => [(error.selector, error)]
  | (selector, other) :: rest =>
    if selector = error.selector then (selector, error) :: rest
    else (selector, other) :: insertError rest error

def knownKinds : List String :=
  ["function", "event", "error", "constructor", "fallback", "receive"]

/-- Adds what an entry declares. Entries of unknown kinds declare nothing. -/
def add (abi : ContractAbi) (entry : AbiEntry) : Outcome ContractAbi :=
  match entry.kind with
  | "function" => do
    let function ← entry.toFunction
    return { abi with functionsByName := abi.functionsByName.insert entry.name function }
  | "event" => do
    let event ← entry.toEvent
    return { abi with eventsByName := abi.eventsByName.insert entry.name event }
  | "error" => do
    let error ← entry.toError
    return { abi with errorsBySelector := insertError abi.errorsBySelector error }
  | "constructor" => do
    return { abi with constructor? := some (← entry.toFunction) }
  | "fallback" =>
    .ok { abi with hasFallback := true, fallbackPayable := entry.mutability == "payable" }
  | "receive" => .ok { abi with hasReceive := true }
  | _ => .ok abi

def ofEntries (entries : List AbiEntry) : Outcome ContractAbi :=
  entries.foldlM add {}

/-- The kinds of the entries that are passed over before the last one, or before the first one that
cannot be added. -/
def unknownKinds (abi : ContractAbi) : List AbiEntry → List String
  | [] => []
  | entry :: entries =>
    match abi.add entry with
    | .error _ => []
    | .ok abi =>
      if knownKinds.contains entry.kind then unknownKinds abi entries
      else entry.kind :: unknownKinds abi entries

def ofDocument (document : Value) : Outcome ContractAbi := do
  ofEntries (← AbiEntry.ofDocument document)

def functions (abi : ContractAbi) : List ContractFunction :=
  abi.functionsByName.all

def events (abi : ContractAbi) : List ContractEvent :=
  abi.eventsByName.all

def errors (abi : ContractAbi) : List ContractError :=
  abi.errorsBySelector.map Prod.snd

def function (abi : ContractAbi) (key : String) : Outcome ContractFunction :=
  abi.functionsByName.resolve ContractFunction.canonical "function" key

/-- Whether a name or a signature stands for one function. -/
def hasFunction (abi : ContractAbi) (key : String) : Bool :=
  match abi.function key with
  | .ok _ => true
  | .error _ => false

def event (abi : ContractAbi) (key : String) : Outcome ContractEvent :=
  abi.eventsByName.resolve ContractEvent.canonical "event" key

/-- The first function whose selector call data starts with. -/
def functionBySelector? (abi : ContractAbi) (data : Bytes) : Option ContractFunction :=
  abi.functions.find? fun function => function.selector == data.take selectorLength

def signatures (abi : ContractAbi) : List String :=
  abi.functions.map ContractFunction.canonical

def errorBySelector? (abi : ContractAbi) (selector : Bytes) : Option ContractError :=
  (abi.errorsBySelector.find? fun entry => entry.1 == selector).map Prod.snd

/-- Explains the payload of a revert: as a message, a panic or a custom error. A custom error whose
arguments are malformed is given by its name alone. -/
def decodeError (abi : ContractAbi) : RevertDecoder := fun data =>
  match decodeRevertReason data with
  | some reason => .ok (some reason)
  | none =>
    match abi.errorBySelector? (data.take selectorLength) with
    | none => .ok none
    | some error =>
      match error.decode data with
      | .ok arguments => .ok (some (error.format arguments))
      | .error (.fault fault) =>
        if fault.kind.isA .decode then .ok (some error.name) else .error (.fault fault)
      | .error failure => .error failure

def render (abi : ContractAbi) : String :=
  s!"ContractAbi(functions={abi.functions.length}, events={abi.events.length}, " ++
    s!"errors={abi.errors.length})"

end ContractAbi

end ContractClient
