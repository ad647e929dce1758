import ContractClient.Failure
import ContractClient.Text.Integer

/-!
# Quantities

Numbers are exchanged with nodes as quantities: `0x` and hexadecimal digits without leading zeros,
`0x0` for zero. Reading is more tolerant than writing: leading zeros are accepted, and so is
everything that `Text.hexInteger?` accepts after the marker.
-/

namespace ContractClient.Quantity

def ofNat (value : Nat) : String :=
  String.ofList ('0' :: 'x' :: Nat.toDigits 16 value)

/-- The quantity of a value, which must be an integer that is not negative. -/
def ofValue (value : Value) : Outcome String :=
  match value with
  | .int number =>
    if number < 0 then Outcome.fault (.validation "Quantity must be non-negative")
    else .ok (ofNat number.toNat)
  | other =>
    Outcome.fault (.validation ("Quantity must be an int, got " ++ other.kindName))

/-- The fault of a value that is no quantity. -/
def invalid (value : Value) : Fault :=
  .validation ("Invalid quantity: " ++ value.render)

/-- The number in a text that starts with `0x` and has at least one more character. -/
def ofText? (characters : List Char) : Option Int :=
  match characters with
  | '0' :: 'x' :: _ :: _ => Text.hexInteger? characters
  | '0' :: 'X' :: _ :: _ => Text.hexInteger? characters
  | _ => none

/-- The number that a value stands for. Integers stand for themselves. -/
def toInt (value : Value) : Outcome Int :=
  match value with
  | .int number => .ok number
  | .text characters => match ofText? characters.toList with
    | some number => .ok number
    | none => Outcome.fault (invalid value)
  | _ => Outcome.fault (invalid value)

/-- Whether characters are digits of a canonical quantity. -/
def isCanonicalDigits : List Char → Bool
  | [] => false
  | ['0'] => true
  | first :: rest => first != '0' && Hex.isDigit first && rest.all Hex.isDigit

/-- Whether a text is a canonical quantity, in any case of letters. One line break may follow it. -/
def isCanonical (characters : List Char) : Bool :=
  match characters with
  | '0' :: 'x' :: digits =>
    isCanonicalDigits digits || (digits.getLast? == some '\n' && isCanonicalDigits digits.dropLast)
  | _ => false

end ContractClient.Quantity
