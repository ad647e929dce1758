import ContractClient.Abi.Decoding

/-!
# Event topics

An indexed event field is stored in a topic of one word. Numbers, addresses, flags and short byte
strings are stored as they are; of every other value only the digest of its in-place encoding is
stored, in which items follow each other without offsets and lengths and nested byte strings are
completed to whole words. Only lists and tuples are encoded in place, while the wire format takes
sequences of any kind.
-/

namespace ContractClient

def listCapacity : Nat := 2 ^ 60

section Library

variable [AddressCheck]

mutual

def encodeInPlace (nested : Bool) : AbiType → Value → Outcome Bytes
  | .string, value => match value with
    | .text characters =>
      let octets := Bytes.ofText characters
      .ok (if nested then Bytes.padRight octets else octets)
    | .brokenText _ => Outcome.condition .unencodableText
    | other => Outcome.fault (.encode ("Expected str, got " ++ other.kindName) "string")
  | .bytes, value => match value.octets? with
    | some octets => .ok (if nested then Bytes.padRight octets else octets)
    | none => Outcome.fault (.encode ("Expected bytes, got " ++ value.kindName) "bytes")
  | .fixedArray item length, value => do
    let items ← itemsFor (.fixedArray item length) value
    checkLength (.fixedArray item length) length items
    return (← items.mapM (encodeInPlace true item)).flatten
  | .array item, value => do
    let items ← itemsFor (.array item) value
    return (← items.mapM (encodeInPlace true item)).flatten
  | .tuple components, value => do
    let items ← itemsFor (.tuple components) value
    checkCount (.tuple components) components.length items
    encodeAllInPlace components items
  | type, value => encodeSingle type value
where
  itemsFor (type : AbiType) (value : Value) : Outcome (List Value) :=
    match value.listItems? with
    | some items => .ok items
    | none => Outcome.fault <| .encode
        s!"Expected a list or tuple for {type.canonical}, got {value.kindName}" type.canonical
  checkCount (type : AbiType) (expected : Nat) (items : List Value) : Outcome Unit :=
    if items.length = expected then .ok ()
    else Outcome.fault <| .encode
      s!"Expected {expected} items for {type.canonical}, got {items.length}" type.canonical
  /-- The types of all items are listed before the items are counted. No list is so long that this
  fails for the right number of items. -/
  checkLength (type : AbiType) (length : Nat) (items : List Value) : Outcome Unit :=
    if items.length = length then .ok ()
    else if 2 ^ 63 ≤ length then Outcome.condition .overflow
    else if listCapacity ≤ length then Outcome.condition .outOfMemory
    else checkCount type length items

/-- The in-place encodings of several values, one after the other. -/
def encodeAllInPlace : List AbiType → List Value → Outcome Bytes
  | type :: types, value :: values => do
    let octets ← encodeInPlace true type value
    return octets ++ (← encodeAllInPlace types values)
  | _, _ => .ok []

end

def encodeTopic (type : AbiType) (value : Value) : Outcome Bytes :=
  if type.isValueType then encodeSingle type value
  else do return Keccak.digest (← encodeInPlace false type value)

end Library

/-- The value of an indexed field that is stored as it is. -/
def decodeTopic (type : AbiType) (topic : Bytes) : Outcome Value :=
  if topic.length ≠ Bytes.wordLength then
    Outcome.fault (.outOfBounds type.canonical 0 Bytes.wordLength topic.length)
  else if type.isValueType then decodeSingle type topic
  else
    Outcome.fault <| .decode s!"Indexed {type.canonical} is stored as a hash and cannot be decoded"
      "INVALID_VALUE" type.canonical

end ContractClient
