import ContractClient.Proofs.Abi.Block

/-!
# The sizes of payloads

A static value occupies exactly the size of its type (`AbiType.length_payload_of_static`), so the
heads of a block occupy the sum of the head sizes of its members (`AbiType.headLength_eq_sum`).
Every payload but that of an empty tuple occupies at least one word
(`AbiType.wordLength_le_length_payload`), and every payload and every block occupies whole words
(`AbiType.dvd_length_payload`, `AbiType.dvd_length_block`).
-/

namespace ContractClient

namespace AbiType

section Parts

variable (offset : Nat) (parts : List Part)

/-- The length of the tails of a block. -/
def tailLength : List Part → Nat
  | [] => 0
  | part :: parts => (if part.dynamic then part.content.length else 0) + tailLength parts

@[simp]
theorem length_heads : (heads offset parts).length = headLength parts := by
  induction parts generalizing offset with
  | nil => rfl
  | cons part parts ih =>
      cases dynamic : part.dynamic <;> simp [heads, headLength, dynamic, ih]

@[simp]
theorem length_tails : (tails parts).length = tailLength parts := by
  induction parts with
  | nil => rfl
  | cons part parts ih =>
      cases dynamic : part.dynamic <;> simp [tails, tailLength, dynamic, ih]

theorem length_layout : (layout parts).length = headLength parts + tailLength parts := by
  simp [layout]

end Parts

section Words

attribute [local simp] payload?

variable {value : Value} {content : Bytes} {bits size : Nat}

theorem bytesPayload?_eq_some_iff {octets : Bytes} :
    bytesPayload? octets = some content ↔
      octets.length < 2 ^ 256 ∧ Bytes.word octets.length ++ Bytes.padRight octets = content := by
  simp [bytesPayload?, fitsWord]

theorem length_of_addressOf? {address : Address} (found : addressOf? value = some address) :
    address.octets.length = Address.length := by
  cases value with
  | text characters => exact Address.length_of_ofText? found
  | bytes octets | buffer octets =>
      simp only [addressOf?, Value.octets?, Option.ite_none_right_eq_some,
        Option.some.injEq] at found
      rcases found with ⟨size, rfl⟩
      exact size
  | _ => simp [addressOf?, Value.octets?] at found

theorem length_addressWord {address : Address} (size : address.octets.length = Address.length) :
    (addressWord address).length = Bytes.wordLength := by
  rw [addressWord, List.length_append, Bytes.length_zeros, size]
  decide

variable [AddressCheck]

theorem payload?_uint_eq_some_iff :
    payload? (.uint bits) value = some content ↔
      ∃ number, value = .int number ∧ fitsUnsigned bits number = true ∧
        integerWord number = content := by
  cases value <;> simp

theorem payload?_int_eq_some_iff :
    payload? (.int bits) value = some content ↔
      ∃ number, value = .int number ∧ fitsSigned bits number = true ∧
        integerWord number = content := by
  cases value <;> simp

theorem payload?_address_eq_some_iff :
    payload? .address value = some content ↔
      ∃ address, acceptedAddress? value = some address ∧ addressWord address = content := by
  simp [Option.map_eq_some_iff]

theorem payload?_bool_eq_some_iff :
    payload? .bool value = some content ↔
      ∃ flag, value = .bool flag ∧ Bytes.word (if flag then 1 else 0) = content := by
  cases value <;> simp

theorem payload?_fixedBytes_eq_some_iff :
    payload? (.fixedBytes size) value = some content ↔
      ∃ octets, value.octets? = some octets ∧ octets.length ≤ size ∧
        Bytes.wordOf octets = content := by
  rw [payload?]
  cases value.octets? <;> simp

theorem payload?_bytes_eq_some_iff :
    payload? .bytes value = some content ↔
      ∃ octets, value.octets? = some octets ∧ octets.length < 2 ^ 256 ∧
        Bytes.word octets.length ++ Bytes.padRight octets = content := by
  simp only [payload?, Option.bind_eq_some_iff, bytesPayload?_eq_some_iff]

theorem payload?_string_eq_some_iff :
    payload? .string value = some content ↔
      ∃ text, value = .text text ∧ (Bytes.ofText text).length < 2 ^ 256 ∧
        Bytes.word (Bytes.ofText text).length ++ Bytes.padRight (Bytes.ofText text) = content := by
  cases value <;> simp [bytesPayload?_eq_some_iff]

theorem addressOf?_of_acceptedAddress? {address : Address}
    (found : acceptedAddress? value = some address) : addressOf? value = some address := by
  cases value with
  | text characters => exact (Option.ite_none_right_eq_some.mp found).2
  | _ => exact found

theorem length_of_acceptedAddress? {address : Address}
    (found : acceptedAddress? value = some address) : address.octets.length = Address.length :=
  length_of_addressOf? (addressOf?_of_acceptedAddress? found)

end Words

section Sizes

variable {type item : AbiType} {types : List AbiType} {value : Value}
  {values : List Value} {parts : List Part} {content block : Bytes}

theorem sum_headSize_of_static (static : anyDynamic types = false) :
    (types.map headSize).sum = staticSizes types := by
  induction types with
  | nil => rfl
  | cons type types ih =>
      rcases Bool.or_eq_false_iff.mp static with ⟨typeStatic, typesStatic⟩
      simp [staticSizes, headSize, typeStatic, ih typesStatic]

theorem staticSizes_replicate (count : Nat) (item : AbiType) :
    staticSizes (List.replicate count item) = item.staticSize * count := by
  induction count with
  | zero => rfl
  | succ count ih =>
      rw [List.replicate_succ, staticSizes, ih, Nat.mul_succ, Nat.add_comm]

theorem wordLength_le_headSize (wellFormed : type.WellFormed)
    (nonempty : type.isEmptyTuple = false) : Bytes.wordLength ≤ type.headSize := by
  rw [headSize]
  split
  · exact Nat.le_refl _
  · exact wordLength_le_staticSize wellFormed nonempty

variable [AddressCheck]

/-- The heads of a block occupy what the types of its members say, provided that static values
do. -/
theorem headLength_eq_sum_of_static
    (sizes : ∀ type ∈ types, ∀ value content, payload? type value = some content →
      type.isDynamic = false → content.length = type.staticSize)
    (encoded : parts? types values = some parts) :
    headLength parts = (types.map headSize).sum := by
  induction types generalizing values parts with
  | nil =>
      rcases parts?_nil_eq_some_iff.mp encoded with ⟨rfl, rfl⟩
      rfl
  | cons type types ih =>
      rcases parts?_cons_eq_some_iff.mp encoded with
        ⟨value, rest, content, parts, rfl, payload, encodedRest, rfl⟩
      have restLength := ih (fun type member => sizes type (by simp [member])) encodedRest
      rw [List.map_cons, List.sum_cons, headLength, restLength]
      cases dynamic : type.isDynamic with
      | false =>
          have size := sizes type (by simp) value content payload dynamic
          simp [headSize, dynamic, size]
      | true => simp [headSize, dynamic]

theorem tailLength_of_static (static : anyDynamic types = false)
    (encoded : parts? types values = some parts) : tailLength parts = 0 := by
  induction types generalizing values parts with
  | nil =>
      rcases parts?_nil_eq_some_iff.mp encoded with ⟨rfl, rfl⟩
      rfl
  | cons type types ih =>
      rcases parts?_cons_eq_some_iff.mp encoded with
        ⟨value, rest, content, parts, rfl, _, encodedRest, rfl⟩
      rcases Bool.or_eq_false_iff.mp static with ⟨typeStatic, typesStatic⟩
      simp [tailLength, typeStatic, ih typesStatic encodedRest]

/-- A block of static values occupies the sum of their sizes, provided that the values do. -/
theorem length_block_of_static
    (sizes : ∀ type ∈ types, ∀ value content, payload? type value = some content →
      type.isDynamic = false → content.length = type.staticSize)
    (static : anyDynamic types = false) (encoded : block? types values = some block) :
    block.length = staticSizes types := by
  rcases block?_eq_some_iff.mp encoded with ⟨parts, encodedParts, _, rfl⟩
  rw [length_layout, headLength_eq_sum_of_static sizes encodedParts,
    tailLength_of_static static encodedParts, sum_headSize_of_static static, Nat.add_zero]

/-- A static value occupies exactly the size of its type. -/
theorem length_payload_of_static (wellFormed : type.WellFormed)
    (static : type.isDynamic = false) (payload : payload? type value = some content) :
    content.length = type.staticSize := by
  induction type generalizing value content with
  | uint bits =>
      rcases payload?_uint_eq_some_iff.mp payload with ⟨_, _, _, rfl⟩
      exact Bytes.length_word _
  | int bits =>
      rcases payload?_int_eq_some_iff.mp payload with ⟨_, _, _, rfl⟩
      exact Bytes.length_word _
  | address =>
      rcases payload?_address_eq_some_iff.mp payload with ⟨_, found, rfl⟩
      exact length_addressWord (length_of_acceptedAddress? found)
  | bool =>
      rcases payload?_bool_eq_some_iff.mp payload with ⟨_, _, rfl⟩
      exact Bytes.length_word _
  | fixedBytes size =>
      rcases payload?_fixedBytes_eq_some_iff.mp payload with ⟨octets, _, fits, rfl⟩
      exact Bytes.length_wordOf (Nat.le_trans fits wellFormed.2)
  | bytes | string | array => simp [isDynamic] at static
  | fixedArray item length ih =>
      rcases wellFormed with ⟨_, _, itemWellFormed⟩
      rcases payload?_fixedArray_eq_some_iff.mp payload with ⟨items, _, _, encoded⟩
      have itemStatic : item.isDynamic = false := static
      have itemsStatic : anyDynamic (List.replicate length item) = false := by
        simp [anyDynamic_replicate, itemStatic]
      rw [staticSize, ← staticSizes_replicate]
      refine length_block_of_static ?_ itemsStatic encoded
      intro type member value content itemPayload _
      rcases List.mem_replicate.mp member with ⟨_, rfl⟩
      exact ih itemWellFormed itemStatic itemPayload
  | tuple components ih =>
      rcases payload?_tuple_eq_some_iff.mp payload with ⟨items, _, encoded⟩
      rw [staticSize]
      refine length_block_of_static ?_ static encoded
      intro component member value content componentPayload componentStatic
      have componentWellFormed := (allWellFormed_iff.mp wellFormed component member).2
      exact ih component member componentWellFormed componentStatic componentPayload

/-- The heads of a block occupy the sum of the head sizes of its members. -/
theorem headLength_eq_sum (wellFormed : AllWellFormed types)
    (encoded : parts? types values = some parts) :
    headLength parts = (types.map headSize).sum := by
  refine headLength_eq_sum_of_static ?_ encoded
  intro type member value content payload static
  exact length_payload_of_static (allWellFormed_iff.mp wellFormed type member).2 static payload

theorem length_payload_eq_headSize (wellFormed : type.WellFormed)
    (static : type.isDynamic = false) (payload : payload? type value = some content) :
    content.length = type.headSize := by
  rw [headSize, static, length_payload_of_static wellFormed static payload]
  rfl

/-- A block with at least one member occupies at least one word. -/
theorem wordLength_le_length_block (wellFormed : AllWellFormed (type :: types))
    (encoded : block? (type :: types) values = some block) :
    Bytes.wordLength ≤ block.length := by
  rcases block?_eq_some_iff.mp encoded with ⟨parts, encodedParts, _, rfl⟩
  have typeWidth := wordLength_le_headSize wellFormed.2.1 wellFormed.1
  rw [length_layout, headLength_eq_sum wellFormed encodedParts, List.map_cons, List.sum_cons]
  omega

/-- Every payload but that of an empty tuple occupies at least one word. -/
theorem wordLength_le_length_payload (wellFormed : type.WellFormed)
    (nonempty : type.isEmptyTuple = false) (payload : payload? type value = some content) :
    Bytes.wordLength ≤ content.length := by
  cases dynamic : type.isDynamic with
  | false =>
      rw [length_payload_of_static wellFormed dynamic payload]
      exact wordLength_le_staticSize wellFormed nonempty
  | true =>
      cases type with
      | bytes =>
          rcases payload?_bytes_eq_some_iff.mp payload with ⟨_, _, _, rfl⟩
          simp
      | string =>
          rcases payload?_string_eq_some_iff.mp payload with ⟨_, _, _, rfl⟩
          simp
      | array item =>
          rcases payload?_array_eq_some_iff.mp payload with ⟨_, _, _, _, _, rfl⟩
          simp
      | fixedArray item length =>
          rcases wellFormed with ⟨positive, itemNonempty, itemWellFormed⟩
          rcases payload?_fixedArray_eq_some_iff.mp payload with ⟨items, _, _, encoded⟩
          rcases Nat.exists_eq_add_one_of_ne_zero (Nat.ne_of_gt positive) with ⟨count, rfl⟩
          refine wordLength_le_length_block ?_ encoded
          exact List.replicate_succ ▸ allWellFormed_replicate itemNonempty itemWellFormed
      | tuple components =>
          rcases payload?_tuple_eq_some_iff.mp payload with ⟨items, _, encoded⟩
          cases components with
          | nil => simp [isEmptyTuple] at nonempty
          | cons component components => exact wordLength_le_length_block wellFormed encoded
      | _ => simp [isDynamic] at dynamic

end Sizes

section WholeWords

variable {type : AbiType} {types : List AbiType} {value : Value}
  {values : List Value} {parts : List Part} {content block : Bytes}

/-- A block occupies whole words, provided that the contents of its parts do: the head of a dynamic
part is a word. -/
theorem dvd_length_layout (whole : ∀ part ∈ parts, Bytes.wordLength ∣ part.content.length) :
    Bytes.wordLength ∣ (layout parts).length := by
  rw [length_layout]
  induction parts with
  | nil => exact Nat.dvd_zero _
  | cons part parts ih =>
      have first := whole part (by simp)
      have others := ih fun part member => whole part (List.mem_cons_of_mem _ member)
      rw [headLength, tailLength]
      unfold Bytes.wordLength at *
      split <;> omega

theorem dvd_length_content (octets : Bytes) :
    Bytes.wordLength ∣ (Bytes.word octets.length ++ Bytes.padRight octets).length := by
  rw [List.length_append, Bytes.length_word, Bytes.length_padRight]
  simp only [Bytes.wordPadding, Bytes.wordLength]
  omega

variable [AddressCheck]

theorem exists_payload?_of_mem_parts? (encoded : parts? types values = some parts) :
    ∀ part ∈ parts, ∃ type ∈ types, ∃ value, payload? type value = some part.content := by
  induction types generalizing values parts with
  | nil =>
      rcases parts?_nil_eq_some_iff.mp encoded with ⟨rfl, rfl⟩
      simp
  | cons type types ih =>
      rcases parts?_cons_eq_some_iff.mp encoded with
        ⟨value, rest, content, parts, rfl, payload, encodedRest, rfl⟩
      intro part member
      rcases List.mem_cons.mp member with rfl | member
      · exact ⟨type, by simp, value, payload⟩
      · rcases ih encodedRest part member with ⟨found, foundMember, itsPayload⟩
        exact ⟨found, List.mem_cons_of_mem _ foundMember, itsPayload⟩

theorem dvd_length_block_of_forall
    (whole : ∀ type ∈ types, ∀ value content, payload? type value = some content →
      Bytes.wordLength ∣ content.length)
    (encoded : block? types values = some block) : Bytes.wordLength ∣ block.length := by
  rcases block?_eq_some_iff.mp encoded with ⟨parts, encodedParts, _, rfl⟩
  apply dvd_length_layout
  intro part member
  rcases exists_payload?_of_mem_parts? encodedParts part member with
    ⟨type, typeMember, value, payload⟩
  exact whole type typeMember value part.content payload

theorem dvd_length_block_replicate {item : AbiType} {count : Nat}
    (whole : ∀ value content, payload? item value = some content →
      Bytes.wordLength ∣ content.length)
    (encoded : block? (List.replicate count item) values = some block) :
    Bytes.wordLength ∣ block.length := by
  refine dvd_length_block_of_forall ?_ encoded
  intro type member
  rw [List.eq_of_mem_replicate member]
  exact whole

/-- Every payload occupies whole words. -/
theorem dvd_length_payload (wellFormed : type.WellFormed)
    (payload : payload? type value = some content) : Bytes.wordLength ∣ content.length := by
  induction type generalizing value content with
  | uint | int | address | bool | fixedBytes =>
      rw [length_payload_of_static wellFormed rfl payload]
      exact Nat.dvd_refl _
  | bytes =>
      rcases payload?_bytes_eq_some_iff.mp payload with ⟨octets, _, _, rfl⟩
      exact dvd_length_content octets
  | string =>
      rcases payload?_string_eq_some_iff.mp payload with ⟨text, _, _, rfl⟩
      exact dvd_length_content (Bytes.ofText text)
  | fixedArray item length ih =>
      rcases payload?_fixedArray_eq_some_iff.mp payload with ⟨items, _, _, encoded⟩
      exact dvd_length_block_replicate (fun _ _ => ih wellFormed.2.2) encoded
  | array item ih =>
      rcases payload?_array_eq_some_iff.mp payload with ⟨items, body, _, _, encoded, rfl⟩
      have wholeBody := dvd_length_block_replicate (fun _ _ => ih wellFormed.2) encoded
      rw [List.length_append, Bytes.length_word]
      exact Nat.dvd_add (Nat.dvd_refl _) wholeBody
  | tuple components ih =>
      rcases payload?_tuple_eq_some_iff.mp payload with ⟨items, _, encoded⟩
      refine dvd_length_block_of_forall ?_ encoded
      intro component member value content componentPayload
      have componentWellFormed := (allWellFormed_iff.mp wellFormed component member).2
      exact ih component member componentWellFormed componentPayload

/-- Every block occupies whole words. -/
theorem dvd_length_block (wellFormed : AllWellFormed types)
    (encoded : block? types values = some block) : Bytes.wordLength ∣ block.length := by
  refine dvd_length_block_of_forall ?_ encoded
  intro type member value content payload
  exact dvd_length_payload (allWellFormed_iff.mp wellFormed type member).2 payload

end WholeWords

end AbiType

end ContractClient
