import ContractClient.Abi.Type
import ContractClient.Wire.Address

/-!
# The wire format: encoding

A list of values is encoded as a block: first the heads of all values, then the tails of the dynamic
ones. The head of a static value is its payload; the head of a dynamic value is the offset, from the
start of the block, of its payload among the tails (`AbiType.layout`). `AbiType.payload?` is the
payload of one value; arrays and tuples are blocks themselves, and an array of any length has its
length in front.

Encoding takes place only if every value is accepted by its type (`AbiType.accepts`). Which texts
are accepted as addresses is a parameter (`AddressCheck`); where nothing else is said, letters of
either case are. A text without an encoding is accepted and has no payload; neither has a value with
a length or an offset that does not fit a word. What is refused is shown (`AbiType.refused?`),
provided that it can be shown.
-/

namespace ContractClient

/-- Which of the texts that write an address are taken. This is up to the library that checks
addresses: some releases of it look at the capitals of a text, others do not. -/
class AddressCheck where
  takes : List Char → Bool
  takes_text (octets : Bytes) (size : octets.length = Address.length) :
    takes (Address.text ⟨octets⟩).toList = true

/-- Letters of either case are taken, wherever they stand. -/
instance AddressCheck.anyCase : AddressCheck where
  takes _ := true
  takes_text _ _ := rfl

namespace AbiType

/-- The payload of a value inside a block, and whether it stands behind an offset. -/
structure Part where
  dynamic : Bool
  content : Bytes
  deriving DecidableEq, Repr, Inhabited

def headLength : List Part → Nat
  | [] => 0
  | part :: parts =>
    (if part.dynamic then Bytes.wordLength else part.content.length) + headLength parts

/-- The heads of a block whose next tail stands at an offset. -/
def heads : (offset : Nat) → List Part → Bytes
  | _, [] => []
  | offset, part :: parts =>
    if part.dynamic then Bytes.word offset ++ heads (offset + part.content.length) parts
    else part.content ++ heads offset parts

def tails : List Part → Bytes
  | [] => []
  | part :: parts => if part.dynamic then part.content ++ tails parts else tails parts

def layout (parts : List Part) : Bytes :=
  heads (headLength parts) parts ++ tails parts

def fitsWord (number : Nat) : Bool :=
  number < 2 ^ 256

/-- Whether the offsets of a block whose next tail stands at an offset fit words. -/
def offsetsFit : (offset : Nat) → List Part → Bool
  | _, [] => true
  | offset, part :: parts =>
    if part.dynamic then fitsWord offset && offsetsFit (offset + part.content.length) parts
    else offsetsFit offset parts

/-- The block of the given payloads, unless an offset does not fit a word. -/
def layout? (parts : List Part) : Option Bytes :=
  if offsetsFit (headLength parts) parts then some (layout parts) else none

/-- Whether an integer fits an unsigned type of a width. -/
def fitsUnsigned (bits : Nat) (number : Int) : Bool :=
  0 ≤ number && number < 2 ^ bits

def fitsSigned (bits : Nat) (number : Int) : Bool :=
  -(2 ^ (bits - 1)) ≤ number && number < 2 ^ (bits - 1)

/-- The word of an integer; negative integers are written in two's complement. -/
def integerWord (number : Int) : Bytes :=
  Bytes.word (number % 2 ^ 256).toNat

/-- The address that a value names: twenty bytes, or the text of an address. -/
def addressOf? (value : Value) : Option Address :=
  match value with
  | .text characters => Address.ofText? characters.toList
  | other => match other.octets? with
    | some octets => if octets.length = Address.length then some ⟨octets⟩ else none
    | none => none

/-- The address that a value names, if it is one that the library takes. -/
def acceptedAddress? [AddressCheck] (value : Value) : Option Address :=
  match value with
  | .text characters => if AddressCheck.takes characters.toList then addressOf? value else none
  | _ => addressOf? value

def addressWord (address : Address) : Bytes :=
  Bytes.zeros (Bytes.wordLength - Address.length) ++ address.octets

/-- The payload of a byte string of any length: its length, and its bytes in whole words. -/
def bytesPayload? (octets : Bytes) : Option Bytes :=
  if fitsWord octets.length then some (Bytes.word octets.length ++ Bytes.padRight octets) else none

section Library

variable [AddressCheck]

mutual

def accepts : AbiType → Value → Bool
  | uint bits, .int number => fitsUnsigned bits number
  | int bits, .int number => fitsSigned bits number
  | address, value => (acceptedAddress? value).isSome
  | bool, .bool _ => true
  | fixedBytes size, value => match value.octets? with
    | some octets => octets.length ≤ size
    | none => false
  | bytes, value => value.octets?.isSome
  | string, .text _ => true
  | string, .brokenText _ => true
  | fixedArray item length, value => match value.items? with
    | some items => items.length == length && items.all (accepts item)
    | none => false
  | array item, value => match value.items? with
    | some items => items.all (accepts item)
    | none => false
  | tuple components, value => match value.items? with
    | some items => acceptsAll components items
    | none => false
  | _, _ => false

/-- Whether there is one value for each type and every value passes the checks of its type. -/
def acceptsAll : List AbiType → List Value → Bool
  | [], [] => true
  | type :: types, value :: values => accepts type value && acceptsAll types values
  | _, _ => false

end

mutual

/-- The value that a refusal shows: the first item that is refused itself, or else the value. An
accepted value has none. -/
def refused? : AbiType → Value → Option Value
  | fixedArray item length, value => match value.items? with
    | some items => match items.findSome? (refused? item) with
      | some found => some found
      | none => if items.length = length then none else some value
    | none => some value
  | array item, value => match value.items? with
    | some items => items.findSome? (refused? item)
    | none => some value
  | tuple components, value => match value.items? with
    | some items =>
      if items.length = components.length then firstRefused? components items else some value
    | none => some value
  | type, value => if accepts type value then none else some value

/-- The value that the refusal of several values shows. -/
def firstRefused? : List AbiType → List Value → Option Value
  | type :: types, value :: values => match refused? type value with
    | some found => some found
    | none => firstRefused? types values
  | _, _ => none

end

mutual

def payload? : AbiType → Value → Option Bytes
  | uint bits, .int number =>
    if fitsUnsigned bits number then some (integerWord number) else none
  | int bits, .int number =>
    if fitsSigned bits number then some (integerWord number) else none
  | address, value => (acceptedAddress? value).map addressWord
  | bool, .bool flag => some (Bytes.word (if flag then 1 else 0))
  | fixedBytes size, value => match value.octets? with
    | some octets => if octets.length ≤ size then some (Bytes.wordOf octets) else none
    | none => none
  | bytes, value => value.octets?.bind bytesPayload?
  | string, .text characters => bytesPayload? (Bytes.ofText characters)
  | fixedArray item length, value => match value.items? with
    | some items =>
      if items.length = length then
        (items.mapM (payload? item)).bind fun contents =>
          layout? (contents.map (Part.mk item.isDynamic))
      else none
    | none => none
  | array item, value => match value.items? with
    | some items =>
      if fitsWord items.length then
        (items.mapM (payload? item)).bind fun contents =>
          (layout? (contents.map (Part.mk item.isDynamic))).map (Bytes.word items.length ++ ·)
      else none
    | none => none
  | tuple components, value => match value.items? with
    | some items => (parts? components items).bind layout?
    | none => none
  | _, _ => none

def parts? : List AbiType → List Value → Option (List Part)
  | [], [] => some []
  | type :: types, value :: values => do
    let content ← payload? type value
    let parts ← parts? types values
    some (⟨type.isDynamic, content⟩ :: parts)
  | _, _ => none

end

end Library

def signature (types : List AbiType) : String :=
  (tuple types).canonical

end AbiType

def encode [AddressCheck] (types : List AbiType) (values : List Value) : Outcome Bytes :=
  if types.length ≠ values.length then
    Outcome.fault <| .encode s!"Expected {types.length} values, got {values.length}"
      (AbiType.signature types)
  else if types.any AbiType.isEmptyTuple then Outcome.condition .badValue
  else
    match (AbiType.parts? types values).bind AbiType.layout? with
    | some block => .ok block
    | none =>
      if AbiType.acceptsAll types values && Value.anyUnencodable values then
        Outcome.condition .unencodableText
      else if (AbiType.firstRefused? types values).any (!·.isShowable) then
        Outcome.condition .badValue
      else
        Outcome.fault { Fault.encode "" (AbiType.signature types) with message := none }

def encodeSingle [AddressCheck] (type : AbiType) (value : Value) : Outcome Bytes :=
  encode [type] [value]

end ContractClient
