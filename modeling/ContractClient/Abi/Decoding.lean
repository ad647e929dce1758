import ContractClient.Abi.Encoding

/-!
# The wire format: decoding

Decoding is strict: padding must be zero or a sign extension, a flag must be zero or one, a text
must be UTF-8, and nothing may be read past the end of the data. Data after the last value is
ignored.

A block is decoded in two passes. The first one checks, in order, that every offset points behind
the heads and into the data, and that every static value decodes; the second one decodes the values
and follows the offsets (`AbiType.checkMembers`, `AbiType.decodeMembers`). When the end of the heads
is computed for the first pass, a static array of fixed length counts one word for each item and
everything else counts one word.

The decoder yields addresses in lower case and the items of arrays as tuples; `AbiType.normalise`
turns what it yields into what callers get.
-/

namespace ContractClient

/-- What can be wrong with data. -/
inductive DecodeIssue where
  /-- A read, an offset or a length that leaves the data. -/
  | outOfBounds
  /-- Padding that is not what the value demands. -/
  | invalidPadding
  /-- A word that stands for no value. -/
  | invalidValue
  /-- A text that is not UTF-8. -/
  | invalidText
  deriving DecidableEq, Repr, Inhabited

def DecodeIssue.code : DecodeIssue → String
  | outOfBounds => "OUT_OF_BOUNDS"
  | invalidPadding => "INVALID_PADDING"
  | invalidValue => "INVALID_VALUE"
  | invalidText => "INVALID_VALUE"

namespace AbiType

abbrev Decoded (α : Type) := Except DecodeIssue α

def readBytes (data : Bytes) (position count : Nat) : Decoded Bytes :=
  if position + count ≤ data.length then .ok ((data.drop position).take count)
  else .error .outOfBounds

def readNat (data : Bytes) (position : Nat) : Decoded Nat := do
  let word ← readBytes data position Bytes.wordLength
  .ok (Bytes.toNat word)

def unsignedOfWord (bits word : Nat) : Decoded Value :=
  if word < 2 ^ bits then .ok (.int word) else .error .invalidPadding

def signedOfWord (bits word : Nat) : Decoded Value :=
  if word < 2 ^ (bits - 1) then .ok (.int word)
  else if 2 ^ 256 - 2 ^ (bits - 1) ≤ word then .ok (.int ((word : Int) - 2 ^ 256))
  else .error .invalidPadding

def flagOfWord (word : Nat) : Decoded Value :=
  if 1 < word % 256 then .error .invalidValue
  else if 1 < word then .error .invalidPadding
  else .ok (.bool (word = 1))

def addressOfWord (word : Bytes) : Decoded Value :=
  let padding := Bytes.wordLength - Address.length
  if (word.take padding).all (· == 0) then .ok (.text (Hex.text (word.drop padding)))
  else .error .invalidPadding

def fixedBytesOfWord (size : Nat) (word : Bytes) : Decoded Value :=
  if (word.drop size).all (· == 0) then .ok (.bytes (word.take size)) else .error .invalidPadding

/-- The content of a byte string of any length: a word with its length, and its bytes in whole
words. -/
def readContent (data : Bytes) (position : Nat) : Decoded Bytes := do
  let length ← readNat data position
  let padded ← readBytes data (position + Bytes.wordLength) (length + Bytes.wordPadding length)
  if (padded.drop length).all (· == 0) then .ok (padded.take length) else .error .invalidPadding

/-- The text with the given UTF-8 form. -/
def textOfContent (content : Bytes) : Decoded Value :=
  match Bytes.toText? content with
  | some text => .ok (.text text)
  | none => .error .invalidText

def checkOffset (data : Bytes) (start headsEnd position : Nat) : Decoded Unit := do
  let offset ← readNat data position
  if headsEnd ≤ start + offset ∧ start + offset < data.length then .ok () else .error .outOfBounds

def checkOffsets (data : Bytes) (start headsEnd : Nat) : (count position : Nat) → Decoded Unit
  | 0, _ => .ok ()
  | count + 1, position => do
    checkOffset data start headsEnd position
    checkOffsets data start headsEnd count (position + Bytes.wordLength)

/-- Decodes `count` values that stand a fixed distance apart. -/
def decodeRun (decode : Nat → Decoded Value) (stride : Nat) :
    (count position : Nat) → Decoded (List Value)
  | 0, _ => .ok []
  | count + 1, position => do
    let value ← decode position
    let values ← decodeRun decode stride count (position + stride)
    .ok (value :: values)

/-- Decodes the value behind the offset at a position of a block. -/
def followOffset (decode : Nat → Decoded Value) (data : Bytes) (start position : Nat) :
    Decoded Value := do
  let offset ← readNat data position
  decode (start + offset)

/-- Decodes the items of an array that start at a position. -/
def decodeItems (decode : Nat → Decoded Value) (item : AbiType) (data : Bytes)
    (count start : Nat) : Decoded (List Value) :=
  if item.isDynamic then do
    checkOffsets data start (start + Bytes.wordLength * count) count start
    decodeRun (followOffset decode data start) Bytes.wordLength count start
  else decodeRun decode item.headSize count start

/-- How many words a member counts when the end of the heads is computed. -/
def headWords : AbiType → Nat
  | fixedArray item length => if item.isDynamic then 1 else length
  | _ => 1

def headsEnd (types : List AbiType) (start : Nat) : Nat :=
  start + Bytes.wordLength * (types.map headWords).sum

mutual

def decodeAt (data : Bytes) : AbiType → (position : Nat) → Decoded Value
  | uint bits, position => do unsignedOfWord bits (← readNat data position)
  | int bits, position => do signedOfWord bits (← readNat data position)
  | address, position => do addressOfWord (← readBytes data position Bytes.wordLength)
  | bool, position => do flagOfWord (← readNat data position)
  | fixedBytes size, position => do
    fixedBytesOfWord size (← readBytes data position Bytes.wordLength)
  | bytes, position => do return .bytes (← readContent data position)
  | string, position => do textOfContent (← readContent data position)
  | fixedArray item length, position => do
    return .tuple (← decodeItems (decodeAt data item) item data length position)
  | array item, position => do
    let count ← readNat data position
    return .tuple (← decodeItems (decodeAt data item) item data count (position + Bytes.wordLength))
  | tuple components, position => do
    if anyDynamic components then
      checkMembers data position (headsEnd components position) components position
    return .tuple (← decodeMembers data position components position)

/-- The first pass over the members of a block. -/
def checkMembers (data : Bytes) (start headsEnd : Nat) : List AbiType → (position : Nat) →
    Decoded Unit
  | [], _ => .ok ()
  | type :: types, position => do
    if type.isDynamic then checkOffset data start headsEnd position
    else discard (decodeAt data type position)
    checkMembers data start headsEnd types (position + type.headSize)

/-- The second pass over the members of a block. -/
def decodeMembers (data : Bytes) (start : Nat) : List AbiType → (position : Nat) →
    Decoded (List Value)
  | [], _ => .ok []
  | type :: types, position => do
    let value ←
      if type.isDynamic then followOffset (decodeAt data type) data start position
      else decodeAt data type position
    let values ← decodeMembers data start types (position + type.headSize)
    .ok (value :: values)

end

/-- Decodes the block of values of the given types at the start of the data. -/
def decodeBlock (types : List AbiType) (data : Bytes) : Decoded (List Value) := do
  if anyDynamic types then checkMembers data 0 (headsEnd types 0) types 0
  decodeMembers data 0 types 0

mutual

/-- A decoded value as callers get it: addresses are written with capitals, the items of an array
are a list. -/
def normalise : AbiType → Value → Value
  | address, value => match addressOf? value with
    | some found => found.toValue
    | none => value
  | fixedArray item _, value => .list ((value.items?.getD []).map (normalise item))
  | array item, value => .list ((value.items?.getD []).map (normalise item))
  | tuple components, value => .tuple (normaliseAll components (value.items?.getD []))
  | _, value => value

def normaliseAll : List AbiType → List Value → List Value
  | type :: types, value :: values => normalise type value :: normaliseAll types values
  | _, _ => []

end

end AbiType

def DecodeIssue.fault (types : List AbiType) (issue : DecodeIssue) : Fault :=
  { Fault.decode "" issue.code (AbiType.signature types) with
    message := if issue = .invalidText then some "String payload is not valid UTF-8" else none }

def decode (types : List AbiType) (data : Bytes) : Outcome (List Value) :=
  if types.any AbiType.isEmptyTuple then Outcome.condition .badValue
  else
    match AbiType.decodeBlock types data with
    | .ok values => .ok (AbiType.normaliseAll types values)
    | .error issue => Outcome.fault (issue.fault types)

def decodeSingle (type : AbiType) (data : Bytes) : Outcome Value := do
  return (← decode [type] data).headD .null

end ContractClient
