import ContractClient.Number.Shortest
import ContractClient.Text.Integer
import ContractClient.Text.Quoted

/-!
# Values

`Value` is what callers hand over and what nodes reply with: a value of any kind, whose kind is only
known when it is looked at. Entries of a dictionary keep the order in which they were first set.
`Value.render` writes a value as messages show it, `Value.display` writes a text as itself and every
other value as `Value.render` does.
-/

namespace ContractClient

/-- A value of any kind. -/
inductive Value where
  | null
  | bool (value : Bool)
  | int (value : Int)
  | float (value : Binary64)
  | text (value : String)
  /-- A text with code points that have no encoding: surrogates that stand alone. -/
  | brokenText (codePoints : List Nat)
  | bytes (octets : Bytes)
  /-- A byte string that its holder may still change. -/
  | buffer (octets : Bytes)
  | list (items : List Value)
  | tuple (items : List Value)
  /-- A sequence that is neither a list nor a tuple, such as a range: the name of its kind, the text
  that shows it, if there is one, and its items. -/
  | sequence (kind : String) (shown : Option String) (items : List Value)
  /-- An indexed event field of which only the hash is known. -/
  | hash (octets : Bytes)
  | dict (entries : List (String × Value))
  deriving Inhabited, Repr

/-- The entries of a dictionary, in the order in which their keys were first set. -/
abbrev Dict := List (String × Value)

namespace Dict

def get? (entries : Dict) (key : String) : Option Value :=
  (entries.find? fun entry => entry.1 == key).map Prod.snd

/-- Sets a key: in place when it is there, at the end when it is new. -/
def set (entries : Dict) (key : String) (value : Value) : Dict :=
  if entries.any fun entry => entry.1 == key then
    entries.map fun entry => if entry.1 == key then (key, value) else entry
  else entries ++ [(key, value)]

/-- Sets a key unless there is no value for it. -/
def setSome (entries : Dict) (key : String) (value : Option Value) : Dict :=
  match value with
  | none => entries
  | some value => entries.set key value

def merge (base overrides : Dict) : Dict :=
  overrides.foldl (fun entries entry => entries.set entry.1 entry.2) base

end Dict

namespace Value

def kindName : Value → String
  | null => "NoneType"
  | bool _ => "bool"
  | int _ => "int"
  | float _ => "float"
  | text _ => "str"
  | brokenText _ => "str"
  | bytes _ => "bytes"
  | buffer _ => "bytearray"
  | list _ => "list"
  | tuple _ => "tuple"
  | sequence kind _ _ => kind
  | hash _ => "IndexedHash"
  | dict _ => "dict"

mutual

def render : Value → String
  | null => "None"
  | bool value => if value then "True" else "False"
  | int value => toString value
  | float value => value.toText
  | text value => Text.quote value
  | brokenText codePoints => Text.quoteCodePoints Text.isPrintable codePoints
  | bytes octets => Text.quoteBytes octets
  | buffer octets => "bytearray(" ++ Text.quoteBytes octets ++ ")"
  | list items => "[" ++ ", ".intercalate (renderAll items) ++ "]"
  | tuple [] => "()"
  | tuple [item] => "(" ++ render item ++ ",)"
  | tuple items => "(" ++ ", ".intercalate (renderAll items) ++ ")"
  | sequence _ shown _ => shown.getD ""
  | hash octets => "IndexedHash(hash=" ++ Text.quoteBytes octets ++ ")"
  | dict entries => "\x7b" ++ ", ".intercalate (renderEntries entries) ++ "\x7d"

def renderAll : List Value → List String
  | [] => []
  | item :: items => render item :: renderAll items

/-- The entries of a dictionary as messages show them. -/
def renderEntries : List (String × Value) → List String
  | [] => []
  | (key, value) :: entries => (Text.quote key ++ ": " ++ render value) :: renderEntries entries

end

/-- A text as itself, any other value as messages show it. -/
def display : Value → String
  | text value => value
  | brokenText codePoints => String.ofList (codePoints.map Char.ofNat)
  | hash octets => Hex.text octets
  | other => other.render

mutual

/-- Whether a value can be shown. Integers with too many digits have no text. -/
def isShowable : Value → Bool
  | int value => value.natAbs < 10 ^ Text.digitLimit
  | list items => allShowable items
  | tuple items => allShowable items
  | sequence _ shown _ => shown.isSome
  | dict entries => allEntriesShowable entries
  | _ => true

def allShowable : List Value → Bool
  | [] => true
  | item :: items => isShowable item && allShowable items

def allEntriesShowable : List (String × Value) → Bool
  | [] => true
  | (_, value) :: entries => isShowable value && allEntriesShowable entries

end

/-- Whether a value counts as present: zero, nothing and everything empty do not. -/
def isTruthy : Value → Bool
  | null => false
  | bool value => value
  | int value => value != 0
  | float value => !value.isZero
  | text value => !value.isEmpty
  | brokenText codePoints => !codePoints.isEmpty
  | bytes octets => !octets.isEmpty
  | buffer octets => !octets.isEmpty
  | list items => !items.isEmpty
  | tuple items => !items.isEmpty
  | sequence _ _ items => !items.isEmpty
  | hash _ => true
  | dict entries => !entries.isEmpty

/-- Whether a value is equal to an integer, whatever kind of number it is. -/
def equalsInt (value : Value) (number : Int) : Bool :=
  match value with
  | bool flag => (if flag then 1 else 0) == number
  | int other => other == number
  | float other => other.toRat? == some (number : Rat)
  | _ => false

/-- The items of a sequence of any kind. Texts and byte strings do not count as sequences. -/
def items? : Value → Option (List Value)
  | list items => some items
  | tuple items => some items
  | sequence _ _ items => some items
  | _ => none

/-- The items of a list or a tuple. -/
def listItems? : Value → Option (List Value)
  | list items => some items
  | tuple items => some items
  | _ => none

/-- The entries of a dictionary; any other value has none. -/
def entries : Value → Dict
  | dict entries => entries
  | _ => []

@[simp]
theorem items?_list (items : List Value) : (list items).items? = some items :=
  rfl

@[simp]
theorem items?_tuple (items : List Value) : (tuple items).items? = some items :=
  rfl

@[simp]
theorem items?_sequence (kind : String) (shown : Option String) (items : List Value) :
    (sequence kind shown items).items? = some items :=
  rfl

/-- The content of a byte string of either kind. -/
def octets? : Value → Option Bytes
  | bytes octets => some octets
  | buffer octets => some octets
  | _ => none

mutual

/-- Whether a value is or holds a text that has no encoding. -/
def isUnencodable : Value → Bool
  | brokenText _ => true
  | list items => anyUnencodable items
  | tuple items => anyUnencodable items
  | sequence _ _ items => anyUnencodable items
  | _ => false

/-- Whether one of several values is or holds a text that has no encoding. -/
def anyUnencodable : List Value → Bool
  | [] => false
  | item :: items => isUnencodable item || anyUnencodable items

end

/-- Nothing for a missing value, the value itself otherwise. -/
def ofOption : Option Value → Value
  | none => null
  | some value => value

def ofText? : Option String → Value
  | none => null
  | some value => text value

def ofNat? : Option Nat → Value
  | none => null
  | some value => int value

end Value

end ContractClient
