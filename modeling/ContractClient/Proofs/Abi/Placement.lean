import ContractClient.Proofs.Abi.Members
import ContractClient.Proofs.Abi.Nesting

/-!
# Where values stand in a block

The types tell how a block is laid out before any value is encoded. `AbiType.headPosition` is where
the head of a member begins: behind as many bytes as the head sizes of the members before it add up
to. A static value stands there as it is encoded alone; of a dynamic value an offset stands there,
and the encoding without the offset in front stands among the tails, at `AbiType.tailPosition`.
`AbiType.IsLaidOut` says this of all members, and that the tails leave no gaps.

Which values are dynamic can be read off their types: those that hold a byte string, a text or an
array of any length (`AbiType.isDynamic_iff`). `encode_laid_out` is the statement for encoded
values.
-/

namespace ContractClient

namespace AbiType

variable {type : AbiType} {types : List AbiType} {value : Value} {values : List Value}
  {single block data : Bytes} {singles : List Bytes} {parts front : List Part}
  {offset start position index : Nat}

/-- The types of values that can have different sizes: byte strings, texts and arrays of any length,
arrays of such items, and tuples with such a component. -/
inductive HasVariableSize : AbiType → Prop where
  | bytes : HasVariableSize .bytes
  | string : HasVariableSize .string
  | array (item : AbiType) : HasVariableSize (.array item)
  | fixedArray {item : AbiType} (length : Nat) (inner : HasVariableSize item) :
      HasVariableSize (.fixedArray item length)
  | tuple {components : List AbiType} {component : AbiType} (member : component ∈ components)
      (inner : HasVariableSize component) : HasVariableSize (.tuple components)

theorem anyDynamic_iff : anyDynamic types = true ↔ ∃ type ∈ types, type.isDynamic = true := by
  induction types with
  | nil => simp [anyDynamic]
  | cons type types ih => simp [anyDynamic, ih]

theorem isDynamic_of_hasVariableSize (variableSize : type.HasVariableSize) :
    type.isDynamic = true := by
  induction variableSize with
  | bytes | string | array => rfl
  | fixedArray length inner ih => exact ih
  | tuple member inner ih => exact anyDynamic_iff.mpr ⟨_, member, ih⟩

theorem isDynamic_iff : type.isDynamic = true ↔ type.HasVariableSize := by
  refine ⟨fun dynamic => ?_, isDynamic_of_hasVariableSize⟩
  induction type with
  | bytes => exact .bytes
  | string => exact .string
  | array item => exact .array item
  | fixedArray item length ih => exact .fixedArray length (ih dynamic)
  | tuple components ih =>
      rcases anyDynamic_iff.mp dynamic with ⟨component, member, inner⟩
      exact .tuple member (ih component member inner)
  | _ => cases dynamic

/-- Where the head of a member of a block begins. -/
def headPosition (types : List AbiType) (index : Nat) : Nat :=
  ((types.take index).map headSize).sum

/-- What stands among the tails of a block for a value with this encoding: nothing for a static
value, and for a dynamic one what is behind the offset in front. -/
def tailOf (type : AbiType) (single : Bytes) : Bytes :=
  if type.isDynamic then single.drop Bytes.wordLength else []

/-- The tails of a block, one for each member. -/
def tailsOf (types : List AbiType) (singles : List Bytes) : List Bytes :=
  List.zipWith tailOf types singles

/-- Where the tail of a member of a block begins: behind all heads and the tails before it. -/
def tailPosition (types : List AbiType) (singles : List Bytes) (index : Nat) : Nat :=
  (types.map headSize).sum + (((tailsOf types singles).take index).map List.length).sum

/-- A block holds values that are encoded alone as the given byte strings. -/
structure IsLaidOut (types : List AbiType) (singles : List Bytes) (block : Bytes) : Prop where
  static : ∀ index type single, types[index]? = some type → singles[index]? = some single →
    type.isDynamic = false →
      single.length = type.headSize ∧ StandsAt single block (headPosition types index)
  dynamic : ∀ index type single, types[index]? = some type → singles[index]? = some single →
    type.isDynamic = true →
      type.headSize = Bytes.wordLength ∧
      single.take Bytes.wordLength = Bytes.word Bytes.wordLength ∧
      tailPosition types singles index < 2 ^ 256 ∧
      StandsAt (Bytes.word (tailPosition types singles index)) block (headPosition types index) ∧
      StandsAt (single.drop Bytes.wordLength) block (tailPosition types singles index)
  tails : block.drop (types.map headSize).sum = (tailsOf types singles).flatten
  length : block.length =
    (types.map headSize).sum + ((tailsOf types singles).map List.length).sum
  whole : Bytes.wordLength ∣ block.length

section Members

/-- The part of a block that a value has, given how it is encoded alone. -/
def partOf (type : AbiType) (single : Bytes) : Part :=
  ⟨type.isDynamic, if type.isDynamic then single.drop Bytes.wordLength else single⟩

/-- What an encoding of a value of a type looks like: of the size of a static type, or behind the
offset of a dynamic one. -/
def IsSingle (type : AbiType) (single : Bytes) : Prop :=
  if type.isDynamic then single.take Bytes.wordLength = Bytes.word Bytes.wordLength
  else single.length = type.headSize

theorem exists_single [AddressCheck] (wellFormed : type.WellFormed)
    (nonempty : type.isEmptyTuple = false) {content : Bytes}
    (payload : payload? type value = some content) :
    ∃ single, encodeSingle type value = .ok single ∧ IsSingle type single ∧
      partOf type single = ⟨type.isDynamic, content⟩ := by
  refine ⟨_, (encodeSingle_eq_ok_iff nonempty).mpr ⟨content, payload, rfl⟩, ?_⟩
  cases dynamic : type.isDynamic with
  | true => simp [IsSingle, partOf, dynamic, List.take_left', List.drop_left']
  | false =>
      have size := length_payload_eq_headSize wellFormed dynamic payload
      simp [IsSingle, partOf, dynamic, size]

/-- The parts of a block are those of the encodings of its members. -/
theorem exists_singles [AddressCheck] (wellFormed : AllWellFormed types)
    (encoded : parts? types values = some parts) :
    ∃ singles, List.zipWith encodeSingle types values = singles.map .ok ∧
      List.Forall₂ IsSingle types singles ∧ List.zipWith partOf types singles = parts := by
  induction types generalizing values parts with
  | nil =>
      rcases parts?_nil_eq_some_iff.mp encoded with ⟨rfl, rfl⟩
      exact ⟨[], rfl, .nil, rfl⟩
  | cons type types ih =>
      rcases parts?_cons_eq_some_iff.mp encoded with
        ⟨value, rest, content, parts, rfl, payload, encodedRest, rfl⟩
      rcases exists_single wellFormed.2.1 wellFormed.1 payload with
        ⟨single, encodedSingle, isSingle, part⟩
      rcases ih wellFormed.2.2 encodedRest with ⟨singles, encodedSingles, areSingle, others⟩
      refine ⟨single :: singles, ?_, .cons isSingle areSingle, ?_⟩
      · rw [List.zipWith_cons_cons, encodedSingle, encodedSingles, List.map_cons]
      · rw [List.zipWith_cons_cons, part, others]

theorem isSingle_of_getElem? (areSingle : List.Forall₂ IsSingle types singles)
    (atType : types[index]? = some type) (atSingle : singles[index]? = some single) :
    IsSingle type single := by
  rcases List.getElem?_eq_some_iff.mp atType with ⟨typeWithin, rfl⟩
  rcases List.getElem?_eq_some_iff.mp atSingle with ⟨singleWithin, rfl⟩
  exact areSingle.get typeWithin singleWithin

theorem headLength_partsOf (areSingle : List.Forall₂ IsSingle types singles) :
    headLength (List.zipWith partOf types singles) = (types.map headSize).sum := by
  induction areSingle with
  | nil => rfl
  | @cons type single types singles isSingle areSingle ih =>
      rw [List.zipWith_cons_cons, headLength, ih, List.map_cons, List.sum_cons, partOf]
      rw [IsSingle] at isSingle
      cases dynamic : type.isDynamic with
      | true => simp [headSize_of_isDynamic dynamic]
      | false => simpa [dynamic] using isSingle

theorem tails_partsOf (types : List AbiType) (singles : List Bytes) :
    tails (List.zipWith partOf types singles) = (tailsOf types singles).flatten := by
  induction types generalizing singles with
  | nil => rfl
  | cons type types ih =>
      cases singles with
      | nil => rfl
      | cons single singles =>
          rw [tailsOf, List.zipWith_cons_cons, List.zipWith_cons_cons, tails, ih, List.flatten_cons,
            tailOf]
          cases dynamic : type.isDynamic <;> simp [partOf, tailsOf, dynamic]

theorem tailLength_partsOf (types : List AbiType) (singles : List Bytes) :
    tailLength (List.zipWith partOf types singles) =
      ((tailsOf types singles).map List.length).sum := by
  rw [← length_tails, tails_partsOf, List.length_flatten]

end Members

section Blocks

/-- What is left of a block behind some of its members. -/
theorem Placed.skip (placed : Placed offset (front ++ parts) data start position) :
    Placed (offset + tailLength front) parts data start (position + headLength front) := by
  induction front generalizing offset position with
  | nil => exact placed
  | cons part front ih =>
      rcases part with ⟨dynamic, content⟩
      rw [List.cons_append] at placed
      rw [tailLength, headLength, ← Nat.add_assoc, ← Nat.add_assoc]
      cases dynamic with
      | true => exact ih placed.afterOffset
      | false => exact ih placed.afterHead

/-- In a block, the head of a member stands at its position, and the tails from the position of its
tail on. -/
theorem placed_member (areSingle : List.Forall₂ IsSingle types singles)
    (fits : offsetsFit (headLength (List.zipWith partOf types singles))
      (List.zipWith partOf types singles) = true)
    (atType : types[index]? = some type) (atSingle : singles[index]? = some single) :
    ∃ rest, Placed (tailPosition types singles index) (partOf type single :: rest)
      (layout (List.zipWith partOf types singles)) 0 (headPosition types index) := by
  have atPart : (List.zipWith partOf types singles)[index]? = some (partOf type single) := by
    simp [List.getElem?_zipWith, atType, atSingle]
  rcases List.getElem?_eq_some_iff.mp atPart with ⟨within, found⟩
  have split : List.zipWith partOf types singles =
      List.zipWith partOf (types.take index) (singles.take index) ++
        partOf type single :: (List.zipWith partOf types singles).drop (index + 1) := by
    rw [← found, List.getElem_cons_drop, ← List.take_zipWith, List.take_append_drop]
  have placed := Placed.ofLayout (StandsAt.start _) fits
  rw [headLength_partsOf areSingle] at placed
  nth_rewrite 1 [split] at placed
  have here := placed.skip
  rw [tailLength_partsOf, headLength_partsOf (List.forall₂_take index areSingle), Nat.zero_add,
    tailsOf, ← List.take_zipWith] at here
  exact ⟨_, here⟩

theorem isLaidOut_layout (areSingle : List.Forall₂ IsSingle types singles)
    (fits : offsetsFit (headLength (List.zipWith partOf types singles))
      (List.zipWith partOf types singles) = true)
    (whole : Bytes.wordLength ∣ (layout (List.zipWith partOf types singles)).length) :
    IsLaidOut types singles (layout (List.zipWith partOf types singles)) where
  static := by
    intro index type single atType atSingle static
    have isSingle := isSingle_of_getElem? areSingle atType atSingle
    rcases placed_member areSingle fits atType atSingle with ⟨rest, placed⟩
    rw [partOf, static, if_neg Bool.false_ne_true] at placed
    rw [IsSingle, static, if_neg Bool.false_ne_true] at isSingle
    exact ⟨isSingle, placed.head⟩
  dynamic := by
    intro index type single atType atSingle dynamic
    have isSingle := isSingle_of_getElem? areSingle atType atSingle
    rcases placed_member areSingle fits atType atSingle with ⟨rest, placed⟩
    rw [partOf, dynamic, if_pos rfl] at placed
    rw [IsSingle, dynamic, if_pos rfl] at isSingle
    have tail := placed.tail
    rw [Nat.zero_add] at tail
    exact ⟨headSize_of_isDynamic dynamic, isSingle, (readNat_eq_ok_iff.mp placed.readNat).1,
      placed.heads.left, tail⟩
  tails := by
    rw [layout, ← tails_partsOf, List.drop_left']
    rw [length_heads, headLength_partsOf areSingle]
  length := by
    rw [length_layout, headLength_partsOf areSingle, tailLength_partsOf]
  whole := whole

end Blocks

end AbiType

/-- Values that are encoded together stand where their types say: heads behind heads, each as long
as the type says, and then the tails of the dynamic values, in order and without gaps. -/
theorem encode_laid_out [AddressCheck] {types : List AbiType} {values : List Value} {block : Bytes}
    (constructed : ∀ type ∈ types, type.Constructed) (encoded : encode types values = .ok block) :
    (∀ type ∈ types, type.isDynamic = true ↔ type.HasVariableSize) ∧
      ∃ singles, List.zipWith encodeSingle types values = singles.map .ok ∧
        singles.length = types.length ∧ AbiType.IsLaidOut types singles block := by
  rcases encode_eq_ok_iff.mp encoded with ⟨_, noneEmpty, encodedBlock⟩
  have wellFormed := AbiType.allWellFormed_of_constructed constructed (by simpa using noneEmpty)
  have whole := AbiType.dvd_length_block wellFormed encodedBlock
  rcases AbiType.block?_eq_some_iff.mp encodedBlock with ⟨parts, encodedParts, fits, rfl⟩
  rcases AbiType.exists_singles wellFormed encodedParts with
    ⟨singles, encodedSingles, areSingle, rfl⟩
  exact ⟨fun _ _ => AbiType.isDynamic_iff, singles, encodedSingles, areSingle.length_eq.symm,
    AbiType.isLaidOut_layout areSingle fits whole⟩

set_option maxRecDepth 4000 in
/-- A static array takes two words among the heads, an array of any length and a tuple with a text
take one, so that the head of the tuple is the fifth word. -/
theorem encode_laid_out_mixed :
    let pair : AbiType := .tuple [.string, .bool]
    let types : List AbiType := [.array .bool, .fixedArray (.uint 16) 2, .int 8, pair]
    let values : List Value := [.list [.bool true, .bool true], .tuple [.int 1, .int 2],
      .int (-1), .list [.text "é", .bool true]]
    (∀ type ∈ types, type.Constructed) ∧ AbiType.headPosition types 3 = 128 ∧
      pair.HasVariableSize ∧ ∃ block singles, encode types values = .ok block ∧
        List.zipWith encodeSingle types values = singles.map .ok ∧
        singles.length = types.length ∧ AbiType.IsLaidOut types singles block := by
  intro pair types values
  have constructedPair : pair.Constructed := by
    have components : ∀ component ∈ [.string, .bool], AbiType.Constructed component := by
      simpa using ⟨.string, .bool⟩
    exact .tuple components rfl
  have constructedWidths : AbiType.Constructed (.fixedArray (.uint 16) 2) := by
    refine .ofLength (.uint (.int 16) rfl) rfl (by decide) ?_
    calc 2 < 10 ^ 1 := by decide
      _ ≤ 10 ^ Text.digitLimit := Nat.pow_le_pow_right (by decide) (by decide)
  have constructed : ∀ type ∈ types, type.Constructed := by
    simp only [types, List.forall_mem_cons, List.not_mem_nil, false_implies, implies_true,
      and_true]
    exact ⟨.array .bool rfl, constructedWidths, .int (.int 8) rfl, constructedPair⟩
  have encoded : encode types values = .ok _ := rfl
  rcases encode_laid_out constructed encoded with ⟨told, singles, encodedSingles, count, laidOut⟩
  have variableSize : pair.HasVariableSize := (told pair (by simp [types])).mp rfl
  exact ⟨constructed, rfl, variableSize, _, singles, encoded, encodedSingles, count, laidOut⟩

end ContractClient
