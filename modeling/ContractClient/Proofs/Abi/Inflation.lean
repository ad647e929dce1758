import ContractClient.Proofs.Abi.Extent
import ContractClient.Proofs.Abi.Members
import ContractClient.Proofs.Abi.Reencoding

/-!
# Lists cannot outgrow the data

The length of an array stands in the data, where anybody can write any number. A list that is
decoded still has at most as many items as the data has words, at every depth of what is decoded:
each item, or the offset to it, is read at a place of its own in the data.

This rests on the width of types. Every type that can be built but the empty tuple takes at least
one word in the head of its block, and whole words (`AbiType.wordLength_le_headSize`,
`AbiType.dvd_headSize`); so the heads of the members of a block, all of which are read, end within
the data (`AbiType.sum_headSize_le_of_decodeMembers`). `decode_bounds_lists` is the statement for
whole blocks.
-/

namespace ContractClient

namespace Value

/-- A value stands in another one, at any depth. -/
inductive StandsIn (inner : Value) : Value → Prop where
  | self : StandsIn inner inner
  | list {items : List Value} {item : Value} (member : item ∈ items)
      (inside : StandsIn inner item) : StandsIn inner (.list items)
  | tuple {items : List Value} {item : Value} (member : item ∈ items)
      (inside : StandsIn inner item) : StandsIn inner (.tuple items)
  | sequence {kind : String} {shown : Option String} {items : List Value} {item : Value}
      (member : item ∈ items) (inside : StandsIn inner item) :
      StandsIn inner (.sequence kind shown items)
  | dict {entries : Dict} {entry : String × Value} (member : entry ∈ entries)
      (inside : StandsIn inner entry.2) : StandsIn inner (.dict entries)

/-- No list in a value has more items than a limit. -/
def ListsWithin (limit : Nat) (value : Value) : Prop :=
  ∀ items, (Value.list items).StandsIn value → items.length ≤ limit

/-- A value without items and entries. -/
def IsAtom : Value → Prop
  | list _ | tuple _ | sequence _ _ _ | dict _ => False
  | _ => True

variable {limit : Nat} {value : Value} {items : List Value}

theorem IsAtom.listsWithin (atom : value.IsAtom) : ListsWithin limit value := by
  intro items stands
  cases stands with
  | self | list | tuple | sequence | dict => exact atom.elim

theorem listsWithin_list (count : items.length ≤ limit)
    (each : ∀ item ∈ items, ListsWithin limit item) : ListsWithin limit (.list items) := by
  intro others stands
  cases stands with
  | self => exact count
  | list member inside => exact each _ member others inside

theorem listsWithin_tuple (each : ∀ item ∈ items, ListsWithin limit item) :
    ListsWithin limit (.tuple items) := by
  intro others stands
  cases stands with
  | tuple member inside => exact each _ member others inside

end Value

namespace AbiType

variable {type item : AbiType} {types : List AbiType} {value raw : Value} {raws : List Value}
  {content data : Bytes} {start position count limit : Nat}

theorem dvd_staticSize (type : AbiType) : Bytes.wordLength ∣ type.staticSize := by
  induction type with
  | fixedArray item length ih => exact Nat.dvd_mul_right_of_dvd ih length
  | tuple components ih =>
      rw [staticSize]
      induction components with
      | nil => exact Nat.dvd_zero _
      | cons component components rest =>
          rw [List.forall_mem_cons] at ih
          exact Nat.dvd_add ih.1 (rest ih.2)
  | _ => exact Nat.dvd_refl _

theorem dvd_headSize (type : AbiType) : Bytes.wordLength ∣ type.headSize := by
  rw [headSize]
  split
  · exact Nat.dvd_refl _
  · exact dvd_staticSize type

section Heads

theorem headSize_le_of_isEncodedAt (wellFormed : type.WellFormed)
    (static : type.isDynamic = false) (encodedAt : IsEncodedAt data type position raw) :
    position + type.headSize ≤ data.length := by
  rcases encodedAt with ⟨content, payload, stands⟩
  rw [← length_payload_eq_headSize wellFormed static payload]
  exact stands.le_length

/-- The head of the first member of a block lies within the data, provided that static values
do. -/
theorem headSize_le_of_decodeMembers
    (static : type.isDynamic = false → ∀ raw, decodeAt data type position = .ok raw →
      position + type.headSize ≤ data.length)
    (decoded : decodeMembers data start (type :: types) position = .ok raws) :
    position + type.headSize ≤ data.length := by
  rw [decodeMembers] at decoded
  cases dynamic : type.isDynamic with
  | true =>
      rw [dynamic, if_pos rfl] at decoded
      rcases Outcome.bind_eq_ok_iff.mp decoded with ⟨raw, followed, _⟩
      rcases Outcome.bind_eq_ok_iff.mp followed with ⟨offset, read, _⟩
      rw [headSize_of_isDynamic dynamic]
      exact end_le_of_readNat read
  | false =>
      rw [dynamic, if_neg Bool.false_ne_true] at decoded
      rcases Outcome.bind_eq_ok_iff.mp decoded with ⟨raw, first, _⟩
      exact static dynamic raw first

theorem sum_headSize_le_of_forall
    (each : ∀ type ∈ types, ∀ position raw, type.isDynamic = false →
      decodeAt data type position = .ok raw → position + type.headSize ≤ data.length)
    (nonempty : types ≠ []) (decoded : decodeMembers data start types position = .ok raws) :
    position + (types.map headSize).sum ≤ data.length := by
  induction types generalizing position raws with
  | nil => exact absurd rfl nonempty
  | cons type types ih =>
      rw [List.forall_mem_cons] at each
      have first := headSize_le_of_decodeMembers (fun static raw => each.1 position raw static)
        decoded
      rw [List.map_cons, List.sum_cons, ← Nat.add_assoc]
      cases types with
      | nil => exact first
      | cons second types =>
          rcases decodeMembers_cons_inv decoded with ⟨_, _, rest, _, _, _, others⟩
          exact ih each.2 (List.cons_ne_nil second types) others

theorem sum_headSize_replicate (count : Nat) (item : AbiType) :
    ((List.replicate count item).map headSize).sum = item.headSize * count := by
  simp [Nat.mul_comm]

/-- A static value is read as a whole. -/
theorem headSize_le_of_decodeAt (wellFormed : type.WellFormed)
    (nonempty : type.isEmptyTuple = false) (position : Nat) (raw : Value)
    (static : type.isDynamic = false) (decoded : decodeAt data type position = .ok raw) :
    position + type.headSize ≤ data.length := by
  induction type generalizing position raw with
  | uint bits => exact headSize_le_of_isEncodedAt wellFormed static (isEncodedAt_uint decoded)
  | int bits =>
      exact headSize_le_of_isEncodedAt wellFormed static (isEncodedAt_int wellFormed decoded)
  | address => exact headSize_le_of_isEncodedAt wellFormed static (isEncodedAt_address decoded)
  | bool => exact headSize_le_of_isEncodedAt wellFormed static (isEncodedAt_bool decoded)
  | fixedBytes size =>
      exact headSize_le_of_isEncodedAt wellFormed static
        (isEncodedAt_fixedBytes wellFormed.2 decoded)
  | bytes | string | array => cases static
  | fixedArray item length ih =>
      rcases wellFormed with ⟨positive, itemNonempty, itemWellFormed⟩
      have itemStatic : item.isDynamic = false := static
      rw [decodeAt, decodeItems_eq_decodeBlockAt] at decoded
      rcases Outcome.bind_eq_ok_iff.mp decoded with ⟨raws, decodedItems, _⟩
      have read := sum_headSize_le_of_forall
        (fun type member => List.eq_of_mem_replicate member ▸ ih itemWellFormed itemNonempty)
        (by simp; omega) (decodeMembers_of_decodeBlockAt decodedItems)
      rw [sum_headSize_replicate] at read
      simpa [headSize, static, itemStatic, staticSize] using read
  | tuple components ih =>
      rw [decodeAt_tuple] at decoded
      rcases Outcome.bind_eq_ok_iff.mp decoded with ⟨raws, decodedItems, _⟩
      have someComponents : components ≠ [] := by
        rintro rfl
        cases nonempty
      have each := allWellFormed_iff.mp wellFormed
      have read := sum_headSize_le_of_forall
        (fun component member =>
          ih component member (each component member).2 (each component member).1)
        someComponents (decodeMembers_of_decodeBlockAt decodedItems)
      rw [sum_headSize_of_static static] at read
      simpa [headSize, static, staticSize] using read

/-- The heads of the members of a block, all of which are read, end within the data. -/
theorem sum_headSize_le_of_decodeMembers (wellFormed : AllWellFormed types) (nonempty : types ≠ [])
    (decoded : decodeMembers data start types position = .ok raws) :
    position + (types.map headSize).sum ≤ data.length := by
  refine sum_headSize_le_of_forall (fun type member => ?_) nonempty decoded
  rcases allWellFormed_iff.mp wellFormed type member with ⟨typeNonempty, typeWellFormed⟩
  exact headSize_le_of_decodeAt typeWellFormed typeNonempty

/-- The data has a word for every item of an array. -/
theorem count_le_of_decodeBlockAt (wellFormed : item.WellFormed)
    (nonempty : item.isEmptyTuple = false)
    (decoded : decodeBlockAt data (List.replicate count item) start = .ok raws) :
    count ≤ data.length / Bytes.wordLength := by
  cases count with
  | zero => exact Nat.zero_le _
  | succ count =>
      have read := sum_headSize_le_of_decodeMembers (allWellFormed_replicate nonempty wellFormed)
        (by simp) (decodeMembers_of_decodeBlockAt decoded)
      rw [sum_headSize_replicate] at read
      have width := wordLength_le_headSize wellFormed nonempty
      rw [Nat.le_div_iff_mul_le (by decide), Nat.mul_comm]
      calc Bytes.wordLength * (count + 1) ≤ item.headSize * (count + 1) :=
            Nat.mul_le_mul_right _ width
        _ ≤ data.length := by omega

end Heads

section Lists

/-- What is encoded as a value of an elementary type has neither items nor entries. -/
theorem isAtom_of_payload? (single : type.isCompound = false)
    (payload : payload? type value = some content) : value.IsAtom := by
  cases type with
  | fixedArray | array | tuple => cases single
  | address =>
      cases value <;> simp_all [payload?, Value.IsAtom, acceptedAddress?, addressOf?, Value.octets?]
  | _ => cases value <;> simp_all [payload?, Value.IsAtom, Value.octets?]

theorem listsWithin_of_isEncodedAt (single : type.isCompound = false)
    (encodedAt : IsEncodedAt data type position raw) :
    Value.ListsWithin limit (normalise type raw) := by
  rcases encodedAt with ⟨content, payload, _⟩
  exact (isAtom_of_payload? single payload).listsWithin

theorem listsWithin_of_decodeMembers
    (each : ∀ type ∈ types, ∀ position raw, decodeAt data type position = .ok raw →
      Value.ListsWithin limit (normalise type raw))
    (decoded : decodeMembers data start types position = .ok raws) :
    ∀ value ∈ normaliseAll types raws, Value.ListsWithin limit value := by
  induction types generalizing position raws with
  | nil => simp [normaliseAll]
  | cons type types ih =>
      rcases decodeMembers_cons_inv decoded with ⟨place, raw, rest, rfl, first, _, others⟩
      rw [List.forall_mem_cons] at each
      rw [normaliseAll, List.forall_mem_cons]
      exact ⟨each.1 place raw first, ih each.2 others⟩

theorem listsWithin_of_decodeItems (wellFormed : item.WellFormed)
    (nonempty : item.isEmptyTuple = false)
    (each : ∀ position raw, decodeAt data item position = .ok raw →
      Value.ListsWithin (data.length / Bytes.wordLength) (normalise item raw))
    (decoded : decodeBlockAt data (List.replicate count item) start = .ok raws) :
    Value.ListsWithin (data.length / Bytes.wordLength) (.list (raws.map (normalise item))) := by
  have decodedMembers := decodeMembers_of_decodeBlockAt decoded
  have length := length_of_decodeMembers decodedMembers
  rw [List.length_replicate] at length
  subst length
  have members := listsWithin_of_decodeMembers
    (fun type member => List.eq_of_mem_replicate member ▸ each) decodedMembers
  rw [normaliseAll_replicate] at members
  apply Value.listsWithin_list _ members
  rw [List.length_map]
  exact count_le_of_decodeBlockAt wellFormed nonempty decoded

/-- No list in a decoded value has more items than the data has words. -/
theorem listsWithin_of_decodeAt (wellFormed : type.WellFormed) (position : Nat) (raw : Value)
    (decoded : decodeAt data type position = .ok raw) :
    Value.ListsWithin (data.length / Bytes.wordLength) (normalise type raw) := by
  induction type generalizing position raw with
  | uint bits => exact listsWithin_of_isEncodedAt rfl (isEncodedAt_uint decoded)
  | int bits => exact listsWithin_of_isEncodedAt rfl (isEncodedAt_int wellFormed decoded)
  | address => exact listsWithin_of_isEncodedAt rfl (isEncodedAt_address decoded)
  | bool => exact listsWithin_of_isEncodedAt rfl (isEncodedAt_bool decoded)
  | fixedBytes size =>
      exact listsWithin_of_isEncodedAt rfl (isEncodedAt_fixedBytes wellFormed.2 decoded)
  | bytes => exact listsWithin_of_isEncodedAt rfl (isEncodedAt_bytes decoded)
  | string => exact listsWithin_of_isEncodedAt rfl (isEncodedAt_string decoded)
  | fixedArray item length ih =>
      rcases wellFormed with ⟨_, itemNonempty, itemWellFormed⟩
      rw [decodeAt, decodeItems_eq_decodeBlockAt] at decoded
      rcases Outcome.bind_eq_ok_iff.mp decoded with ⟨raws, decodedItems, found⟩
      cases found
      exact listsWithin_of_decodeItems itemWellFormed itemNonempty (ih itemWellFormed) decodedItems
  | array item ih =>
      rcases wellFormed with ⟨itemNonempty, itemWellFormed⟩
      rw [decodeAt] at decoded
      rcases Outcome.bind_eq_ok_iff.mp decoded with ⟨count, _, decoded⟩
      rw [decodeItems_eq_decodeBlockAt] at decoded
      rcases Outcome.bind_eq_ok_iff.mp decoded with ⟨raws, decodedItems, found⟩
      cases found
      exact listsWithin_of_decodeItems itemWellFormed itemNonempty (ih itemWellFormed) decodedItems
  | tuple components ih =>
      rw [decodeAt_tuple] at decoded
      rcases Outcome.bind_eq_ok_iff.mp decoded with ⟨raws, decodedItems, found⟩
      cases found
      apply Value.listsWithin_tuple
      exact listsWithin_of_decodeMembers (fun component member => ih component member
        (allWellFormed_iff.mp wellFormed component member).2)
        (decodeMembers_of_decodeBlockAt decodedItems)

end Lists

end AbiType

/-- Whatever the lengths in the data say, no list at any depth of what is decoded has more items
than the data has words: every type that can be built but the empty tuple, which nothing is decoded
as, has a head, and one of whole words. -/
theorem decode_bounds_lists :
    (∀ types data values, (∀ type ∈ types, type.Constructed) → decode types data = .ok values →
      ∀ value ∈ values, ∀ items, (Value.list items).StandsIn value →
        items.length ≤ data.length / Bytes.wordLength) ∧
    ∀ type : AbiType, type.Constructed → type.isEmptyTuple = false →
      0 < type.headSize ∧ Bytes.wordLength ∣ type.headSize := by
  constructor
  · intro types data values constructed decoded
    have nonempty := nonempty_of_decode decoded
    rcases (decode_eq_ok_iff nonempty).mp decoded with ⟨raws, decodedBlock, rfl⟩
    exact AbiType.listsWithin_of_decodeMembers
      (fun type member => AbiType.listsWithin_of_decodeAt (constructed type member).wellFormed)
      (AbiType.decodeMembers_of_decodeBlockAt decodedBlock)
  · intro type constructed nonempty
    have width := AbiType.wordLength_le_headSize constructed.wellFormed nonempty
    have positive : 0 < Bytes.wordLength := by decide
    exact ⟨Nat.lt_of_lt_of_le positive width, type.dvd_headSize⟩

set_option maxRecDepth 4000 in
/-- Several offsets may point to the same list, so that more items are decoded than the data has
words; but each list is a short one. -/
theorem decode_bounds_lists_shared :
    let type : AbiType := .array (.array (.uint 8))
    let inner : List Value := [.int 7, .int 8]
    let data : Bytes := Bytes.word 32 ++ Bytes.word 3 ++
      (Bytes.word 96 ++ Bytes.word 96 ++ Bytes.word 96) ++
        (Bytes.word 2 ++ Bytes.word 7 ++ Bytes.word 8)
    (∀ member ∈ [type], member.Constructed) ∧
      decode [type] data = .ok [.list [.list inner, .list inner, .list inner]] ∧
      (Value.list inner).StandsIn (.list [.list inner, .list inner, .list inner]) ∧
      inner.length ≤ data.length / Bytes.wordLength ∧
      type.Constructed ∧ type.isEmptyTuple = false ∧
      0 < type.headSize ∧ Bytes.wordLength ∣ type.headSize := by
  intro type inner data
  have constructed : type.Constructed := .array (.array (.uint (.int 8) rfl) rfl) rfl
  have nonempty : type.isEmptyTuple = false := rfl
  have decoded : decode [type] data = .ok [.list [.list inner, .list inner, .list inner]] := by rfl
  have stands : (Value.list inner).StandsIn (.list [.list inner, .list inner, .list inner]) :=
    .list List.mem_cons_self .self
  have allConstructed : ∀ member ∈ [type], member.Constructed := by simpa using constructed
  rcases decode_bounds_lists with ⟨bounded, heads⟩
  exact ⟨allConstructed, decoded, stands,
    bounded [type] data _ allConstructed decoded _ List.mem_cons_self inner stands, constructed,
    nonempty, heads type constructed nonempty⟩

end ContractClient
