import ContractClient.Proofs.Abi.Fit

/-!
# The length of blocks

`AbiType.blockLength` is the number of bytes in the block of some values: the heads of all of them,
and the tails of those that stand behind an offset (`AbiType.length_block`). A block of fewer than
`2 ^ 256` bytes is addressable: all its lengths and offsets fit words
(`AbiType.isAddressable_of_tailSize`), so that values that fit have it
(`AbiType.exists_block_of_blockLength`).
-/

namespace ContractClient

namespace AbiType

mutual

/-- The number of bytes behind the offset of a value. -/
def tailSize : AbiType → Value → Nat
  | bytes, value => match value.octets? with
    | some octets => Bytes.wordLength + (Bytes.padRight octets).length
    | none => 0
  | string, value => match value with
    | .text text => Bytes.wordLength + (Bytes.padRight (Bytes.ofText text)).length
    | _ => 0
  | fixedArray item _, value => match value.items? with
    | some items =>
      (items.map fun entry => item.headSize + if item.isDynamic then tailSize item entry else 0).sum
    | none => 0
  | array item, value => match value.items? with
    | some items => Bytes.wordLength +
      (items.map fun entry => item.headSize + if item.isDynamic then tailSize item entry else 0).sum
    | none => 0
  | tuple components, value => match value.items? with
    | some items => blockLength components items
    | none => 0
  | _, _ => 0

/-- The number of bytes in the block of several values. -/
def blockLength : List AbiType → List Value → Nat
  | type :: types, value :: values =>
    type.headSize + (if type.isDynamic then tailSize type value else 0) + blockLength types values
  | _, _ => 0

end

variable {type item : AbiType} {types : List AbiType} {value : Value}
  {values items : List Value} {parts : List Part} {content block : Bytes} {offset : Nat}

theorem blockLength_replicate (item : AbiType) (items : List Value) :
    blockLength (List.replicate items.length item) items =
      (items.map fun entry =>
        item.headSize + if item.isDynamic then tailSize item entry else 0).sum := by
  induction items with
  | nil => rfl
  | cons entry items ih =>
      rw [List.length_cons, List.replicate_succ, blockLength, ih, List.map_cons, List.sum_cons]

theorem offsetsFit_of_lt (short : offset + tailLength parts < 2 ^ 256) :
    offsetsFit offset parts = true := by
  induction parts generalizing offset with
  | nil => rfl
  | cons part parts ih =>
      rw [tailLength] at short
      cases dynamic : part.dynamic with
      | true =>
          rw [dynamic, if_pos rfl] at short
          have rest : offsetsFit (offset + part.content.length) parts = true := ih (by omega)
          have fits : offset < 2 ^ 256 := by omega
          simp [offsetsFit, dynamic, fitsWord, fits, rest]
      | false =>
          rw [dynamic] at short
          have rest : offsetsFit offset parts = true := ih (by simpa using short)
          simp [offsetsFit, dynamic, rest]

theorem length_le_blockLength (wellFormed : item.WellFormed)
    (nonempty : item.isEmptyTuple = false) (items : List Value) :
    items.length ≤ blockLength (List.replicate items.length item) items := by
  have width := wordLength_le_headSize wellFormed nonempty
  have positive : 0 < Bytes.wordLength := by decide
  induction items with
  | nil => exact Nat.le_refl _
  | cons entry items ih =>
      rw [List.length_cons, List.replicate_succ, blockLength]
      omega

variable [AddressCheck]

theorem length_parts_of_forall (wellFormed : AllWellFormed types)
    (each : ∀ type ∈ types, ∀ value content, payload? type value = some content →
      type.isDynamic = true → content.length = tailSize type value)
    (encoded : parts? types values = some parts) :
    headLength parts + tailLength parts = blockLength types values := by
  induction types generalizing values parts with
  | nil =>
      rcases parts?_nil_eq_some_iff.mp encoded with ⟨rfl, rfl⟩
      rfl
  | cons type types ih =>
      rw [List.forall_mem_cons] at each
      rcases parts?_cons_eq_some_iff.mp encoded with
        ⟨value, rest, content, parts, rfl, payload, encodedRest, rfl⟩
      have restLength := ih wellFormed.2.2 each.2 encodedRest
      rw [headLength, tailLength, blockLength]
      cases dynamic : type.isDynamic with
      | true =>
          have size := each.1 value content payload dynamic
          have head := headSize_of_isDynamic dynamic
          simp only [if_true]
          omega
      | false =>
          have size := length_payload_eq_headSize wellFormed.2.1 dynamic payload
          simp only [Bool.false_eq_true, if_false]
          omega

theorem length_block_of_forall (wellFormed : AllWellFormed types)
    (each : ∀ type ∈ types, ∀ value content, payload? type value = some content →
      type.isDynamic = true → content.length = tailSize type value)
    (encoded : block? types values = some block) : block.length = blockLength types values := by
  rcases block?_eq_some_iff.mp encoded with ⟨parts, encodedParts, _, rfl⟩
  rw [length_layout, length_parts_of_forall wellFormed each encodedParts]

/-- The payload of a value behind an offset has the size of its tail. -/
theorem length_payload_of_isDynamic (wellFormed : type.WellFormed) (value : Value)
    (content : Bytes) (payload : payload? type value = some content)
    (dynamic : type.isDynamic = true) : content.length = tailSize type value := by
  induction type generalizing value content with
  | bytes =>
      rcases payload?_bytes_eq_some_iff.mp payload with ⟨octets, found, _, rfl⟩
      simp [tailSize, found]
  | string =>
      rcases payload?_string_eq_some_iff.mp payload with ⟨text, rfl, _, rfl⟩
      simp [tailSize]
  | fixedArray item length ih =>
      rcases wellFormed with ⟨_, itemNonempty, itemWellFormed⟩
      rcases payload?_fixedArray_eq_some_iff.mp payload with ⟨items, found, rfl, encoded⟩
      rw [length_block_of_forall (allWellFormed_replicate itemNonempty itemWellFormed)
        (fun type member => List.eq_of_mem_replicate member ▸ ih itemWellFormed) encoded,
        blockLength_replicate, tailSize]
      simp [found]
  | array item ih =>
      rcases wellFormed with ⟨itemNonempty, itemWellFormed⟩
      rcases payload?_array_eq_some_iff.mp payload with ⟨items, body, found, _, encoded, rfl⟩
      rw [List.length_append, Bytes.length_word,
        length_block_of_forall (allWellFormed_replicate itemNonempty itemWellFormed)
          (fun type member => List.eq_of_mem_replicate member ▸ ih itemWellFormed) encoded,
        blockLength_replicate, tailSize]
      simp [found]
  | tuple components ih =>
      rcases payload?_tuple_eq_some_iff.mp payload with ⟨items, found, encoded⟩
      rw [length_block_of_forall wellFormed (fun component member => ih component member
        (allWellFormed_iff.mp wellFormed component member).2) encoded, tailSize]
      simp [found]
  | _ => simp [isDynamic] at dynamic

/-- The length of a block. -/
theorem length_block (wellFormed : AllWellFormed types)
    (encoded : block? types values = some block) : block.length = blockLength types values :=
  length_block_of_forall wellFormed (fun type member =>
    length_payload_of_isDynamic (allWellFormed_iff.mp wellFormed type member).2) encoded

theorem length_parts (wellFormed : AllWellFormed types)
    (encoded : parts? types values = some parts) :
    headLength parts + tailLength parts = blockLength types values :=
  length_parts_of_forall wellFormed (fun type member =>
    length_payload_of_isDynamic (allWellFormed_iff.mp wellFormed type member).2) encoded

theorem offsetsFit_of_static (static : anyDynamic types = false)
    (encoded : parts? types values = some parts) (offset : Nat) :
    offsetsFit offset parts = true := by
  induction types generalizing values parts with
  | nil =>
      rcases parts?_nil_eq_some_iff.mp encoded with ⟨rfl, rfl⟩
      rfl
  | cons type types ih =>
      rcases parts?_cons_eq_some_iff.mp encoded with
        ⟨value, rest, content, parts, rfl, _, encodedRest, rfl⟩
      rcases Bool.or_eq_false_iff.mp static with ⟨typeStatic, typesStatic⟩
      simp [offsetsFit, typeStatic, ih typesStatic encodedRest]

theorem hasOffsets_of_lt (wellFormed : AllWellFormed types)
    (short : anyDynamic types = true → blockLength types values < 2 ^ 256) :
    HasOffsets types values := by
  intro parts encoded
  cases dynamic : anyDynamic types with
  | true =>
      apply offsetsFit_of_lt
      rw [length_parts wellFormed encoded]
      exact short dynamic
  | false => exact offsetsFit_of_static dynamic encoded _

theorem allAddressable_of_forall
    (each : ∀ type ∈ types, ∀ value, Fits Value.HasEncoding type value →
      (type.isDynamic = true → tailSize type value < 2 ^ 256) → IsAddressable type value)
    (fits : FitsAll Value.HasEncoding types values)
    (short : anyDynamic types = true → blockLength types values < 2 ^ 256) :
    AllAddressable types values := by
  induction types generalizing values with
  | nil => cases values <;> trivial
  | cons type types ih =>
      rw [List.forall_mem_cons] at each
      rcases fitsAll_cons_iff.mp fits with ⟨value, rest, rfl, fitsFirst, fitsRest⟩
      rw [anyDynamic, Bool.or_eq_true, blockLength] at short
      constructor
      · apply each.1 value fitsFirst
        intro dynamic
        have all := short (.inl dynamic)
        rw [if_pos dynamic] at all
        omega
      · apply ih each.2 fitsRest
        intro dynamic
        have all := short (.inr dynamic)
        omega

/-- A value that fits is addressable if what stands behind its offset is short enough. -/
theorem isAddressable_of_tailSize (wellFormed : type.WellFormed) (value : Value)
    (fits : Fits Value.HasEncoding type value)
    (short : type.isDynamic = true → tailSize type value < 2 ^ 256) :
    IsAddressable type value := by
  induction type generalizing value with
  | bytes =>
      intro octets found
      have size := short rfl
      simp only [tailSize, found, Bytes.length_padRight] at size
      omega
  | string =>
      rintro text rfl
      have size := short rfl
      simp only [tailSize, Bytes.length_padRight] at size
      omega
  | fixedArray item length ih =>
      rcases wellFormed with ⟨_, itemNonempty, itemWellFormed⟩
      rcases fits with ⟨items, found, rfl, each⟩
      intro others same
      rw [found, Option.some.injEq] at same
      subst same
      have shortBlock : anyDynamic (List.replicate items.length item) = true →
          blockLength (List.replicate items.length item) items < 2 ^ 256 := by
        intro dynamic
        rw [anyDynamic_replicate, Bool.and_eq_true] at dynamic
        have size := short dynamic.2
        simpa only [tailSize, found, blockLength_replicate] using size
      refine ⟨allAddressable_replicate_iff.mp (allAddressable_of_forall ?_
        (fitsAll_replicate_iff.mpr each) shortBlock), hasOffsets_of_lt
        (allWellFormed_replicate itemNonempty itemWellFormed) shortBlock⟩
      exact fun type member => List.eq_of_mem_replicate member ▸ ih itemWellFormed
  | array item ih =>
      rcases wellFormed with ⟨itemNonempty, itemWellFormed⟩
      rcases fits with ⟨items, found, each⟩
      intro others same
      rw [found, Option.some.injEq] at same
      subst same
      have size := short rfl
      simp only [tailSize, found, ← blockLength_replicate] at size
      have count := length_le_blockLength itemWellFormed itemNonempty items
      refine ⟨by omega, allAddressable_replicate_iff.mp (allAddressable_of_forall ?_
        (fitsAll_replicate_iff.mpr each) fun _ => by omega), hasOffsets_of_lt
        (allWellFormed_replicate itemNonempty itemWellFormed) fun _ => by omega⟩
      exact fun type member => List.eq_of_mem_replicate member ▸ ih itemWellFormed
  | tuple components ih =>
      rcases fits with ⟨items, found, each⟩
      intro others same
      rw [found, Option.some.injEq] at same
      subst same
      have shortBlock : anyDynamic components = true → blockLength components items < 2 ^ 256 := by
        intro dynamic
        have size := short dynamic
        simpa only [tailSize, found] using size
      exact ⟨allAddressable_of_forall (fun component member => ih component member
        (allWellFormed_iff.mp wellFormed component member).2) each shortBlock,
        hasOffsets_of_lt wellFormed shortBlock⟩
  | _ => trivial

/-- Values that fit have a block if it is short enough, or if none of them stands behind an
offset. -/
theorem exists_block_of_blockLength (wellFormed : AllWellFormed types)
    (fits : FitsAll Value.HasEncoding types values)
    (short : anyDynamic types = true → blockLength types values < 2 ^ 256) :
    ∃ block, block? types values = some block :=
  exists_block_iff_fitsAll.mpr ⟨fits, allAddressable_of_forall (fun type member =>
    isAddressable_of_tailSize (allWellFormed_iff.mp wellFormed type member).2) fits short,
    hasOffsets_of_lt wellFormed short⟩

end AbiType

end ContractClient
