import ContractClient.Bytes

/-!
# Recursive length encoding

An item is a byte string or a list of items. Its encoding starts with its kind and its length, and
short items are encoded in fewer bytes than long ones, so that an encoding determines its item.
-/

namespace ContractClient

/-- A byte string or a list of items. -/
inductive Rlp where
  | string (octets : Bytes)
  | list (items : List Rlp)
  deriving Inhabited, Repr

namespace Rlp

/-- A natural number as a byte string without leading zeros. -/
def nat (value : Nat) : Rlp :=
  .string (Bytes.ofNatMinimal value)

/-- The header of a payload: its kind and its length in one byte, or the number of bytes of the
length followed by the length. -/
def header (offset length : Nat) : Bytes :=
  if length < 56 then [UInt8.ofNat (offset + length)]
  else
    let octets := Bytes.ofNatMinimal length
    UInt8.ofNat (offset + 55 + octets.length) :: octets

/-- The encoding of a byte string. A single byte below `0x80` stands for itself. -/
def encodeString (octets : Bytes) : Bytes :=
  match octets with
  | [octet] => if octet < 0x80 then [octet] else header 0x80 1 ++ [octet]
  | octets => header 0x80 octets.length ++ octets

mutual

def encode : Rlp → Bytes
  | string octets => encodeString octets
  | list items =>
    let payload := encodeAll items
    header 0xc0 payload.length ++ payload

/-- The encodings of several items, one after the other. -/
def encodeAll : List Rlp → Bytes
  | [] => []
  | item :: items => encode item ++ encodeAll items

end

end Rlp

end ContractClient
