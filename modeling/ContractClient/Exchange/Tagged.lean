import ContractClient.Exchange.Access
import ContractClient.Number.Decimal

/-!
# Values of all kinds in JSON

JSON has fewer kinds of values than the library. In tagged form a value that JSON lacks is an object
with one entry, whose key names the kind: `int`, `float`, `bytes`, `bytearray`, `tuple`, `hash` or
`dict`. Integers and numbers stand as texts behind their tags, so that no reader loses digits.
-/

namespace ContractClient.Tagged

mutual

def encode : Value → Value
  | .int number => .dict [("int", .digits number)]
  | .float number => .dict [("float", .text number.toText)]
  | .bytes octets => .dict [("bytes", .hex octets)]
  | .buffer octets => .dict [("bytearray", .hex octets)]
  | .hash octets => .dict [("hash", .hex octets)]
  | .list items => .list (encodeAll items)
  | .tuple items => .dict [("tuple", .list (encodeAll items))]
  | .dict entries => .dict [("dict", .dict (encodeEntries entries))]
  | value => value

def encodeAll : List Value → List Value
  | [] => []
  | item :: items => encode item :: encodeAll items

def encodeEntries : List (String × Value) → List (String × Value)
  | [] => []
  | (key, value) :: entries => (key, encode value) :: encodeEntries entries

end

def floatOf (content : String) : Binary64 :=
  (Decimal.toBinary64? content.toList).getD .notANumber

def integerOf : Value → Int
  | .text content => (Text.integer? content.toList).getD 0
  | value => value.asInt

/-- The value that an object with one entry stands for, if the key is a tag. -/
def scalarOf? (key : String) (content : Value) : Option Value :=
  match key with
  | "int" => some (.int (integerOf content))
  | "float" => some (.float (floatOf content.asText))
  | "bytes" => some (.bytes content.asBytes)
  | "bytearray" => some (.buffer content.asBytes)
  | "hash" => some (.hash content.asBytes)
  | _ => none

mutual

/-- The value that a tagged form stands for. An object without a tag is a dictionary. -/
def decode : Value → Value
  | .list items => .list (decodeAll items)
  | .dict [(key, .list items)] =>
    if key = "tuple" then .tuple (decodeAll items) else .dict [(key, .list (decodeAll items))]
  | .dict [(key, .dict entries)] =>
    if key = "dict" then .dict (decodeEntries entries)
    else .dict [(key, decode (.dict entries))]
  | .dict [(key, content)] => (scalarOf? key content).getD (.dict [(key, content)])
  | .dict entries => .dict (decodeEntries entries)
  | value => value

def decodeAll : List Value → List Value
  | [] => []
  | item :: items => decode item :: decodeAll items

/-- The entries of a dictionary whose values are in tagged form. -/
def decodeEntries : List (String × Value) → List (String × Value)
  | [] => []
  | (key, value) :: entries => (key, decode value) :: decodeEntries entries

end

end ContractClient.Tagged

namespace ContractClient.Value

def untagged (value : Value) (key : String) (default : Value := .null) : Value :=
  ((Dict.get? value.entries key).map Tagged.decode).getD default

/-- The fields of an object whose values are in tagged form. -/
def untaggedFields (value : Value) : Dict :=
  Tagged.decodeEntries value.entries

/-- The items of a list whose values are in tagged form. -/
def untaggedParts (value : Value) : List Value :=
  Tagged.decodeAll value.parts

end ContractClient.Value
