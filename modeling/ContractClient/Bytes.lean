/-!
# Byte strings

Byte strings are lists of bytes. Numbers are written most significant byte first, either in a fixed
width (`Bytes.ofNat`) or without leading zero bytes (`Bytes.ofNatMinimal`), and are read back by
`Bytes.toNat`.
-/

namespace ContractClient

abbrev Bytes := List UInt8

namespace Bytes

/-- The number that a byte string writes in base 256, most significant byte first. -/
def toNat (octets : Bytes) : Nat :=
  octets.foldl (fun value octet => value * 256 + octet.toNat) 0

/-- The last `width` base-256 digits of a number, most significant first. -/
def ofNat : (width value : Nat) → Bytes
  | 0, _ => []
  | width + 1, value => ofNat width (value / 256) ++ [UInt8.ofNat (value % 256)]

/-- How many base-256 digits a number has; zero has none. -/
def digitCount (value : Nat) : Nat :=
  if value = 0 then 0 else value.log2 / 8 + 1

/-- The base-256 digits of a number without leading zeros; zero is the empty string. -/
def ofNatMinimal (value : Nat) : Bytes :=
  ofNat (digitCount value) value

def zeros (count : Nat) : Bytes :=
  List.replicate count 0

/-- The bytes of a text in UTF-8. -/
def ofText (text : String) : Bytes :=
  text.toUTF8.data.toList

/-- The text whose UTF-8 form is the given byte string, if there is one. -/
def toText? (octets : Bytes) : Option String :=
  String.fromUTF8? ⟨octets.toArray⟩

/-- The number of bytes in a word of the contract wire format. -/
def wordLength : Nat := 32

def word (value : Nat) : Bytes :=
  ofNat wordLength value

/-- How many zero bytes complete `length` bytes to whole words. -/
def wordPadding (length : Nat) : Nat :=
  (wordLength - length % wordLength) % wordLength

/-- A byte string completed with zeros to whole words. -/
def padRight (octets : Bytes) : Bytes :=
  octets ++ zeros (wordPadding octets.length)

def wordOf (octets : Bytes) : Bytes :=
  octets ++ zeros (wordLength - octets.length)

end Bytes

end ContractClient
