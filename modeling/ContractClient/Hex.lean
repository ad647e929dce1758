import ContractClient.Bytes

/-!
# Hexadecimal text

Byte strings as pairs of hexadecimal digits. `Hex.encode` writes lower-case digits, `Hex.decode?`
reads digits of either case.
-/

namespace ContractClient.Hex

/-- The lower-case hexadecimal digit of a number below sixteen. -/
def digit (value : Nat) : Char :=
  if value < 10 then Char.ofNat ('0'.toNat + value) else Char.ofNat ('a'.toNat + (value - 10))

/-- A number in exactly `width` hexadecimal digits. -/
def digits : (width value : Nat) → List Char
  | 0, _ => []
  | width + 1, value => digits width (value / 16) ++ [digit (value % 16)]

/-- The value of a hexadecimal digit of either case. -/
def value? (character : Char) : Option Nat :=
  if '0' ≤ character ∧ character ≤ '9' then some (character.toNat - '0'.toNat)
  else if 'a' ≤ character ∧ character ≤ 'f' then some (character.toNat - 'a'.toNat + 10)
  else if 'A' ≤ character ∧ character ≤ 'F' then some (character.toNat - 'A'.toNat + 10)
  else none

def isDigit (character : Char) : Bool :=
  (value? character).isSome

def encode (octets : Bytes) : List Char :=
  octets.flatMap fun octet => digits 2 octet.toNat

def decode? : List Char → Option Bytes
  | [] => some []
  | high :: low :: rest => do
    let high ← value? high
    let low ← value? low
    let octets ← decode? rest
    some (UInt8.ofNat (high * 16 + low) :: octets)
  | [_] => none

def number? (characters : List Char) : Option Nat :=
  characters.foldlM (fun total character => (value? character).map (total * 16 + ·)) 0

/-- The digits of a byte string after the marker `0x`. -/
def text (octets : Bytes) : String :=
  String.ofList ('0' :: 'x' :: encode octets)

end ContractClient.Hex
