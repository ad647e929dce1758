import ContractClient.Crypto.Keccak
import ContractClient.Failure

/-!
# Addresses

An address is a string of twenty bytes. Its text is `0x` and forty hexadecimal digits, of which a
letter is a capital exactly when the digest of the lower-case digits has a high digit at its
position. Reading (`Address.ofText?`) accepts letters of either case, checks no capitals, and does
not ask for the marker. Whether the capitals are right is told by `Address.hasChecksum`.
-/

namespace ContractClient

/-- An account or a contract. -/
structure Address where
  octets : Bytes
  deriving DecidableEq, Repr, Inhabited

namespace Address

def length : Nat := 20

/-- The capital form of a hexadecimal letter where the digest has a high digit. -/
def capitalise (character : Char) (digestDigit : Nat) : Char :=
  if 8 ≤ digestDigit then character.toUpper else character

/-- The two digits of every byte, high digit first. -/
def nibbles (octets : Bytes) : List Nat :=
  octets.flatMap fun octet => [octet.toNat / 16, octet.toNat % 16]

def checksumDigits (octets : Bytes) : List Char :=
  let digits := Hex.encode octets
  let digest := Keccak.digest (digits.map fun digit => UInt8.ofNat digit.toNat)
  List.zipWith capitalise digits (nibbles digest)

def text (address : Address) : String :=
  String.ofList ('0' :: 'x' :: checksumDigits address.octets)

instance : ToString Address := ⟨text⟩

/-- The characters behind the marker, if there is one. -/
def unmarked : List Char → List Char
  | '0' :: 'x' :: digits => digits
  | '0' :: 'X' :: digits => digits
  | digits => digits

/-- The address that a text of forty digits, with or without the marker, writes. -/
def ofText? (characters : List Char) : Option Address :=
  let digits := unmarked characters
  if digits.length = 2 * length then (Hex.decode? digits).map Address.mk else none

/-- Whether there are letters of both cases. -/
def isMixed (characters : List Char) : Bool :=
  characters.any Char.isUpper && characters.any Char.isLower

/-- Whether the letters of a text are of one case, or the text is that of its address. -/
def hasChecksum (characters : List Char) : Bool :=
  !isMixed (unmarked characters) ||
    (ofText? characters).any fun address => characters == address.text.toList

/-- The address that a value stands for, under the name by which messages call it. -/
def ofValue (value : Value) (name : String := "address") : Outcome Address :=
  match value with
  | .bytes octets => ofBytes octets
  | .buffer octets => ofBytes octets
  | .text characters => match ofText? characters.toList with
    | some address => .ok address
    | none => malformed
  | _ => malformed
where
  /-- The address with the given bytes, of which there must be twenty. -/
  ofBytes (octets : Bytes) : Outcome Address :=
    if octets.length = length then .ok ⟨octets⟩
    else Outcome.fault (.validation s!"{name} must be 20 bytes, got {octets.length}")
  /-- The failure of a value that is neither a text nor a byte string of an address. -/
  malformed : Outcome Address :=
    Outcome.fault (.validation s!"{name} must be a 0x-prefixed 20-byte hex address")

/-- The text of the address that a value stands for. -/
def normalise (value : Value) (name : String := "address") : Outcome String := do
  let address ← ofValue value name
  return address.text

/-- The bytes that the text of the address that a value stands for writes behind its marker. -/
def octetsOf (value : Value) (name : String := "address") : Outcome Bytes := do
  let text ← normalise value name
  match Hex.decode? (text.toList.drop 2) with
  | some octets => return octets
  | none => Outcome.condition .badValue

/-- The address of the holder of a public key, given the bytes of its two coordinates. -/
def ofPublicKey (key : Bytes) : Address :=
  ⟨(Keccak.digest key).drop 12⟩

def toValue (address : Address) : Value :=
  .text address.text

end Address

end ContractClient
