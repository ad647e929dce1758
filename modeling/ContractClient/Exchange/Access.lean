import ContractClient.Text.Integer
import ContractClient.Wire.Data

/-!
# Parts of documents

Programs that use this library exchange documents with it: values made of dictionaries, lists, texts
and numbers. These functions take documents apart. A part that is missing is null, and a part of
another kind counts as empty, so that a reader states only what it needs.
-/

namespace ContractClient.Value

def parts (value : Value) : List Value :=
  value.items?.getD []

def part (value : Value) (key : String) : Value :=
  ofOption (Dict.get? value.entries key)

def has (value : Value) (key : String) : Bool :=
  (Dict.get? value.entries key).isSome

def asText : Value → String
  | text content => content
  | _ => ""

/-- The content of a text, if it is one. -/
def asText? : Value → Option String
  | text content => some content
  | _ => none

def asInt : Value → Int
  | int number => number
  | bool flag => if flag then 1 else 0
  | _ => 0

def asNat (value : Value) : Nat :=
  value.asInt.toNat

/-- The bytes that a text writes in hexadecimal digits. -/
def asBytes (value : Value) : Bytes :=
  (Data.ofText? value.asText.toList).getD []

/-- A value, unless it is null. -/
def present? (value : Value) : Option Value :=
  Fault.present? value

/-- A number of any size, written in digits. -/
def digits (number : Int) : Value :=
  text (toString number)

/-- A number of any size, written in digits, or null. -/
def digits? (number : Option Int) : Value :=
  ofOption (number.map digits)

def hex (octets : Bytes) : Value :=
  text (Data.ofBytes octets)

end ContractClient.Value
