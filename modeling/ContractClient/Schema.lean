import ContractClient.Failure
import ContractClient.Number.Decimal
import ContractClient.Text.Integer

/-!
# Reading models from values

A model is read from a dictionary field by field. Reading is lenient: a text that writes a number is
a number, zero and one are flags. Everything that is wrong is reported together, in the order of the
fields, each issue with the path from the model to the part that it concerns.
-/

namespace ContractClient

/-- A part of a model that was read, or everything that is wrong with it. -/
inductive Checked (α : Type) where
  | valid (value : α)
  | invalid (issues : List Issue)
  deriving Inhabited

namespace Checked

def issues {α : Type} : Checked α → List Issue
  | valid _ => []
  | invalid issues => issues

def map {α β : Type} (change : α → β) : Checked α → Checked β
  | valid value => valid (change value)
  | invalid issues => invalid issues

/-- Applies one part to another. What is wrong with either is reported. -/
def apply {α β : Type} (change : Checked (α → β)) (part : Checked α) : Checked β :=
  match change, part with
  | valid change, valid value => valid (change value)
  | _, _ => invalid (change.issues ++ part.issues)

instance : Applicative Checked where
  pure := valid
  map := map
  seq change part := apply change (part ())

def issue {α : Type} (kind : IssueKind) : Checked α :=
  invalid [⟨[], kind⟩]

def under {α : Type} (step : PathStep) : Checked α → Checked α
  | valid value => valid value
  | invalid issues => invalid (issues.map fun issue => { issue with path := step :: issue.path })

/-- Continues with a part once it was read. -/
def andThen {α β : Type} (part : Checked α) (next : α → Checked β) : Checked β :=
  match part with
  | valid value => next value
  | invalid issues => invalid issues

/-- Refuses a part that does not satisfy a condition. -/
def require {α : Type} (kind : IssueKind) (condition : α → Bool) (part : Checked α) : Checked α :=
  part.andThen fun value => if condition value then valid value else issue kind

/-- A model that was read, or the failure of one that was not. -/
def toOutcome {α : Type} : Checked α → Outcome α
  | valid value => .ok value
  | invalid issues => .error (.invalidModel issues)

end Checked

namespace Schema

def isMargin (character : Char) : Bool :=
  Text.isBlank character && !(0x1c ≤ character.toNat && character.toNat ≤ 0x1f)

/-- A text without the margins at its two ends. -/
def trim (characters : List Char) : List Char :=
  ((characters.dropWhile isMargin).reverse.dropWhile isMargin).reverse

/-- Whether two underscores follow each other in a text. -/
def hasAdjacentUnderscores : List Char → Bool
  | '_' :: '_' :: _ => true
  | _ :: rest => hasAdjacentUnderscores rest
  | [] => false

/-- The digits of a text in which single underscores may stand between other characters. -/
def withoutUnderscores? (characters : List Char) : Option (List Char) :=
  if characters.head? == some '_' || characters.getLast? == some '_' then none
  else if hasAdjacentUnderscores characters then none
  else some (characters.filter (· != '_'))

/-- The whole part of a text that writes no fraction but zeros. -/
def withoutZeroFraction (characters : List Char) : List Char :=
  match characters.dropWhile (· != '.') with
  | '.' :: fraction =>
    if fraction.all (· == '0') then characters.takeWhile (· != '.') else characters
  | _ => characters

def integerOfText (characters : List Char) : Checked Int :=
  let trimmed := trim characters
  if Text.digitLimit < trimmed.length then .issue .intParsingSize
  else
    let (negative, unsigned) := Text.splitSign (withoutZeroFraction trimmed)
    match withoutUnderscores? unsigned with
    | some digits =>
      if !digits.isEmpty && digits.all Char.isDigit then
        let magnitude : Int := Decimal.ofDigits digits
        .valid (if negative then -magnitude else magnitude)
      else .issue .intParsing
    | none => .issue .intParsing

/-- Reads an integer: an integer, a flag, a number without fraction, or a text. -/
def integer : Value → Checked Int
  | .int number => .valid number
  | .bool flag => .valid (if flag then 1 else 0)
  | .float number =>
    match number.truncate? with
    | none => .issue .finiteNumber
    | some whole => if number.isIntegral then .valid whole else .issue .intFromFloat
  | .text characters => integerOfText characters.toList
  | .brokenText _ => .issue .intParsing
  | .bytes octets => match Bytes.toText? octets with
    | some text => integerOfText text.toList
    | none => .issue .intParsing
  | _ => .issue .intType

def floatOfText (characters : List Char) : Checked Binary64 :=
  match (withoutUnderscores? (trim characters)).bind Decimal.toBinary64? with
  | some number => .valid number
  | none => .issue .floatParsing

/-- Reads a number: a number, an integer within range, a flag, or a text. -/
def float : Value → Checked Binary64
  | .float number => .valid number
  | .int number =>
    let rounded := Binary64.ofInt number
    if rounded.isFinite then .valid rounded else .issue .floatType
  | .bool flag => .valid (Binary64.ofInt (if flag then 1 else 0))
  | .text characters => floatOfText characters.toList
  | .brokenText _ => .issue .floatParsing
  | .bytes octets => match Bytes.toText? octets with
    | some text => floatOfText text.toList
    | none => .issue .floatParsing
  | _ => .issue .floatType

def flagOfText (text : String) : Checked Bool :=
  let word := String.ofList (text.toList.map Char.toLower)
  if ["1", "true", "t", "yes", "y", "on"].contains word then .valid true
  else if ["0", "false", "f", "no", "n", "off"].contains word then .valid false
  else .issue .boolParsing

def flag : Value → Checked Bool
  | .bool value => .valid value
  | .text word => flagOfText word
  | .brokenText _ => .issue .boolParsing
  | .bytes octets => match Bytes.toText? octets with
    | some word => flagOfText word
    | none => .issue .boolParsing
  | .int number =>
    if number = 0 then .valid false else if number = 1 then .valid true else .issue .boolParsing
  | .float number =>
    if !number.isIntegral then .issue .boolType
    else match number.truncate? with
      | some 0 => .valid false
      | some 1 => .valid true
      | _ => .issue .boolParsing
  | _ => .issue .boolType

def text : Value → Checked String
  | .text value => .valid value
  | .bytes octets => ofOctets octets
  | .buffer octets => ofOctets octets
  | _ => .issue .stringType
where
  /-- The text with the given UTF-8 form. -/
  ofOctets (octets : Bytes) : Checked String :=
    match Bytes.toText? octets with
    | some value => .valid value
    | none => .issue .stringUnicode

def optional {α : Type} (read : Value → Checked α) : Value → Checked (Option α)
  | .null => .valid none
  | value => (read value).map some

def itemsFrom {α : Type} (read : Value → Checked α) : (position : Nat) → List Value →
    Checked (List α)
  | _, [] => .valid []
  | position, value :: values =>
    List.cons <$> (read value).under (.index position) <*> itemsFrom read (position + 1) values

def list {α : Type} (read : Value → Checked α) (value : Value) : Checked (List α) :=
  match value.items? with
  | some items => itemsFrom read 0 items
  | none => .issue .listType

def textEntries : Dict → Checked (List (String × String))
  | [] => .valid []
  | (key, value) :: entries =>
    (fun value entries => (key, value) :: entries) <$> (text value).under (.field key) <*>
      textEntries entries

def textMap : Value → Checked (List (String × String))
  | .dict entries => textEntries entries
  | _ => .issue .dictType

def model {α : Type} (read : Dict → Checked α) : Value → Checked α
  | .dict entries => read entries
  | _ => .issue .modelType

def required {α : Type} (entries : Dict) (name : String) (read : Value → Checked α) : Checked α :=
  match Dict.get? entries name with
  | some value => (read value).under (.field name)
  | none => (Checked.issue .missing).under (.field name)

def field {α : Type} (entries : Dict) (name : String) (default : α) (read : Value → Checked α) :
    Checked α :=
  match Dict.get? entries name with
  | some value => (read value).under (.field name)
  | none => .valid default

/-- Refuses to change a field of a model that was read: models stay as they are. -/
def refuseChange {α : Type} (name : String) : Outcome α :=
  .error (.invalidModel [⟨[.field name], .frozenInstance⟩])

/-- Reads an integer that is not below a bound. -/
def integerFrom (least : Int) (value : Value) : Checked Int :=
  (integer value).require .greaterThanEqual (least ≤ ·)

/-- Reads a natural number that is not below a bound. -/
def naturalFrom (least : Nat) (value : Value) : Checked Nat :=
  (integerFrom least value).map Int.toNat

end Schema

end ContractClient
