import ContractClient.Failure
import ContractClient.Text.Integer

/-!
# ABI types

The types of contract interfaces. `AbiType.canonical` is the text of a type that selectors and
topics are computed from; `AbiType.isDynamic` tells whether values of a type are stored behind an
offset, and `AbiType.headSize` how many bytes a value takes in the block that encloses it.

The functions `uintOf`, `intOf`, `fixedBytesOf`, `fixedArrayOf`, `arrayOf` and `tupleOf` build types
and refuse those that do not exist: widths that are no multiple of eight up to 256, byte strings
longer than a word, arrays of no fixed length or of items without width, and tuples with an empty
tuple among their components. `AbiType.WellFormed` describes what they build.
-/

namespace ContractClient

/-- A type of contract interfaces. -/
inductive AbiType where
  | uint (bits : Nat)
  | int (bits : Nat)
  | address
  | bool
  | fixedBytes (size : Nat)
  | bytes
  | string
  | fixedArray (item : AbiType) (length : Nat)
  | array (item : AbiType)
  | tuple (components : List AbiType)
  deriving Inhabited, Repr

namespace AbiType

mutual

def spelling : AbiType → List Char
  | uint bits => "uint".toList ++ Nat.toDigits 10 bits
  | int bits => "int".toList ++ Nat.toDigits 10 bits
  | address => "address".toList
  | bool => "bool".toList
  | fixedBytes size => "bytes".toList ++ Nat.toDigits 10 size
  | bytes => "bytes".toList
  | string => "string".toList
  | fixedArray item length => spelling item ++ '[' :: (Nat.toDigits 10 length ++ [']'])
  | array item => spelling item ++ ['[', ']']
  | tuple components => '(' :: (spellings components ++ [')'])

/-- The characters of the canonical texts of several types, separated by commas. -/
def spellings : List AbiType → List Char
  | [] => []
  | [type] => spelling type
  | type :: types => spelling type ++ ',' :: spellings types

end

def canonical (type : AbiType) : String :=
  String.ofList type.spelling

mutual

/-- Whether values of a type are stored behind an offset. -/
def isDynamic : AbiType → Bool
  | bytes => true
  | string => true
  | fixedArray item _ => isDynamic item
  | array _ => true
  | tuple components => anyDynamic components
  | _ => false

def anyDynamic : List AbiType → Bool
  | [] => false
  | type :: types => isDynamic type || anyDynamic types

end

mutual

def staticSize : AbiType → Nat
  | fixedArray item length => staticSize item * length
  | tuple components => staticSizes components
  | _ => Bytes.wordLength

def staticSizes : List AbiType → Nat
  | [] => 0
  | type :: types => staticSize type + staticSizes types

end

/-- The number of bytes that a value takes in the head of the block that encloses it. -/
def headSize (type : AbiType) : Nat :=
  if type.isDynamic then Bytes.wordLength else type.staticSize

/-- Whether a type is a tuple without components. -/
def isEmptyTuple : AbiType → Bool
  | tuple [] => true
  | _ => false

/-- Whether values of a type are stored in an event topic as they are. -/
def isValueType : AbiType → Bool
  | uint _ => true
  | int _ => true
  | address => true
  | bool => true
  | fixedBytes _ => true
  | _ => false

/-- The greatest value of an unsigned type, the least and the greatest of a signed one. -/
def bounds? : AbiType → Option (Int × Int)
  | uint bits => some (0, 2 ^ bits - 1)
  | int bits => some (-(2 ^ (bits - 1)), 2 ^ (bits - 1) - 1)
  | _ => none

def IsWidth (bits : Nat) : Prop :=
  bits % 8 = 0 ∧ 8 ≤ bits ∧ bits ≤ 256

instance (bits : Nat) : Decidable (IsWidth bits) := by
  unfold IsWidth
  infer_instance

mutual

def WellFormed : AbiType → Prop
  | uint bits => IsWidth bits
  | int bits => IsWidth bits
  | fixedBytes size => 1 ≤ size ∧ size ≤ Bytes.wordLength
  | fixedArray item length => 0 < length ∧ item.isEmptyTuple = false ∧ WellFormed item
  | array item => item.isEmptyTuple = false ∧ WellFormed item
  | tuple components => AllWellFormed components
  | _ => True

/-- Several types that can be built and that are no empty tuples. -/
def AllWellFormed : List AbiType → Prop
  | [] => True
  | type :: types => type.isEmptyTuple = false ∧ WellFormed type ∧ AllWellFormed types

end

def malformed {α : Type} (source reason : String) : Outcome α :=
  Outcome.fault (.abiParse source (some reason))

/-- The width that a value gives, under the name of the type that it belongs to. -/
def widthOf (name : String) (bits : Value) : Outcome Nat := do
  match bits with
  | .int number =>
    if IsWidth number.toNat then return number.toNat
  | _ => pure ()
  let text ← bits.displayed
  malformed (name ++ text) "bit width must be a multiple of 8 in 8..256"

def uintOf (bits : Value) : Outcome AbiType := do
  return .uint (← widthOf "uint" bits)

def intOf (bits : Value) : Outcome AbiType := do
  return .int (← widthOf "int" bits)

def fixedBytesOf (size : Value) : Outcome AbiType := do
  match size with
  | .int number =>
    if 1 ≤ number ∧ number ≤ Bytes.wordLength then return .fixedBytes number.toNat
  | _ => pure ()
  let text ← size.displayed
  malformed ("bytes" ++ text) "size must be between 1 and 32"

/-- Refuses items without width, of which a forged length could claim any number. -/
def checkItem (item : AbiType) (source : String) : Outcome Unit :=
  if item.isEmptyTuple then malformed source "array items must not be empty tuples" else .ok ()

def fixedArrayOf (item : AbiType) (length : Value) : Outcome AbiType := do
  let text ← length.displayed
  let source := item.canonical ++ "[" ++ text ++ "]"
  match length with
  | .int number =>
    if 0 < number then
      checkItem item source
      return .fixedArray item number.toNat
  | _ => pure ()
  malformed source "fixed array length must be positive"

/-- The type of arrays of any length. -/
def arrayOf (item : AbiType) : Outcome AbiType := do
  checkItem item (item.canonical ++ "[]")
  return .array item

def tupleOf (components : List AbiType) : Outcome AbiType :=
  if components.any isEmptyTuple then
    malformed (tuple components).canonical "empty tuple cannot be a component"
  else .ok (.tuple components)

end AbiType

/-- The text `name(type,…)` that selectors and topics are computed from. -/
def canonicalSignature (name : String) (types : List AbiType) : String :=
  name ++ String.ofList ('(' :: (AbiType.spellings types ++ [')']))

end ContractClient
