import ContractClient.Abi.Topic
import ContractClient.Proofs.Abi.RoundTrip
import ContractClient.Proofs.Abi.Size

/-!
# Decoded values are encoded again

Whatever is decoded fits its types and is in normal form (`AbiType.isNormal_of_decodeAt`), so that
it can be encoded, and is decoded again from its encoding. The encoding need not be the data that
was decoded: offsets may leave gaps or point to the same place.

Of static values there is only one form: what is decoded from a word is encoded as that word
(`AbiType.isEncodedAt_of_decodeAt`), because every check of the decoder leaves one word for each
value. `encode_decode` states both for whole blocks and for event topics.
-/

namespace ContractClient

namespace AbiType

/-- A value, in the form in which callers get it, is encoded as what stands in the data. -/
def IsEncodedAt [AddressCheck] (data : Bytes) (type : AbiType) (position : Nat) (raw : Value) :
    Prop :=
  ∃ content, payload? type (normalise type raw) = some content ∧ StandsAt content data position

/-- A value fits a type and is in the form in which callers get it. -/
def IsNormal [AddressCheck] (type : AbiType) (value : Value) : Prop :=
  Fits Value.HasEncoding type value ∧ normalForm type value = value

variable [AddressCheck] {type item : AbiType} {types : List AbiType} {raw : Value}
  {raws : List Value} {data : Bytes} {position start : Nat}

section Words

variable {bits size : Nat}

theorem isEncodedAt_uint (decoded : decodeAt data (.uint bits) position = .ok raw) :
    IsEncodedAt data (.uint bits) position raw := by
  rcases Outcome.bind_eq_ok_iff.mp decoded with ⟨number, read, decoded⟩
  rcases readNat_eq_ok_iff.mp read with ⟨fits, stands⟩
  rw [unsignedOfWord] at decoded
  split at decoded
  · next small =>
      cases decoded
      refine ⟨Bytes.word number, payload?_uint_eq_some_iff.mpr ⟨number, rfl, ?_, ?_⟩, stands⟩
      · have belowWidth : (number : Int) < 2 ^ bits := by exact_mod_cast small
        simp [fitsUnsigned, belowWidth]
      · have unchanged : ((number : Int) % 2 ^ 256).toNat = number := by omega
        rw [integerWord, unchanged]
  · cases decoded

theorem isEncodedAt_int (width : IsWidth bits)
    (decoded : decodeAt data (.int bits) position = .ok raw) :
    IsEncodedAt data (.int bits) position raw := by
  rcases Outcome.bind_eq_ok_iff.mp decoded with ⟨number, read, decoded⟩
  rcases readNat_eq_ok_iff.mp read with ⟨fits, stands⟩
  have widthLimit : 2 ^ (bits - 1) ≤ 2 ^ 255 :=
    Nat.pow_le_pow_right (by decide) (by have := width.2.2; omega)
  have natural : (2 : Int) ^ (bits - 1) = ((2 ^ (bits - 1) : Nat) : Int) := by simp
  -- A word stands for the number itself or for its complement; either way it is the word of what
  -- was decoded.
  have encoded (found : Int) (inRange : fitsSigned bits found = true)
      (same : (found % 2 ^ 256).toNat = number) :
      IsEncodedAt data (.int bits) position (.int found) :=
    ⟨Bytes.word number, payload?_int_eq_some_iff.mpr ⟨found, rfl, inRange,
      by rw [integerWord, same]⟩, stands⟩
  rw [signedOfWord] at decoded
  split at decoded
  · next low =>
      cases decoded
      refine encoded number ?_ (by omega)
      rw [fitsSigned, natural]
      simp only [Bool.and_eq_true, decide_eq_true_eq]
      omega
  · split at decoded
    · next high =>
        cases decoded
        refine encoded ((number : Int) - 2 ^ 256) ?_ (by omega)
        rw [fitsSigned, natural]
        simp only [Bool.and_eq_true, decide_eq_true_eq]
        omega
    · cases decoded

theorem isEncodedAt_address (decoded : decodeAt data .address position = .ok raw) :
    IsEncodedAt data .address position raw := by
  rcases Outcome.bind_eq_ok_iff.mp decoded with ⟨word, read, decoded⟩
  rcases readBytes_eq_ok_iff.mp read with ⟨width, stands⟩
  simp only [addressOfWord] at decoded
  split at decoded
  · next zero =>
      cases decoded
      generalize found : word.drop (Bytes.wordLength - Address.length) = octets
      have size : octets.length = Address.length := by
        rw [← found, List.length_drop, width]
        rfl
      have padding := eq_zeros_of_all zero
      rw [List.length_take_of_le (by rw [width]; decide)] at padding
      have split : addressWord ⟨octets⟩ = word := by
        rw [addressWord, ← padding, ← found, List.take_append_drop]
      have reread : addressOf? (.text (Hex.text octets)) = some ⟨octets⟩ :=
        Address.ofText?_text size
      have written : normalise .address (.text (Hex.text octets)) = Address.toValue ⟨octets⟩ := by
        simp [normalise, reread]
      refine ⟨word, ?_, stands⟩
      rw [written]
      have taken : acceptedAddress? (Address.toValue ⟨octets⟩) = some ⟨octets⟩ :=
        (if_pos (AddressCheck.takes_text octets size)).trans (Address.ofText?_toList_text size)
      exact payload?_address_eq_some_iff.mpr ⟨⟨octets⟩, taken, split⟩
  · cases decoded

theorem isEncodedAt_bool (decoded : decodeAt data .bool position = .ok raw) :
    IsEncodedAt data .bool position raw := by
  rcases Outcome.bind_eq_ok_iff.mp decoded with ⟨number, read, decoded⟩
  rcases readNat_eq_ok_iff.mp read with ⟨_, stands⟩
  rw [flagOfWord] at decoded
  split at decoded
  · cases decoded
  · split at decoded
    · cases decoded
    · next small =>
        cases decoded
        refine ⟨Bytes.word number, payload?_bool_eq_some_iff.mpr ⟨decide (number = 1), rfl, ?_⟩,
          stands⟩
        by_cases one : number = 1
        · simp [one]
        · have zero : number = 0 := by omega
          simp [zero]

theorem isEncodedAt_fixedBytes (limit : size ≤ Bytes.wordLength)
    (decoded : decodeAt data (.fixedBytes size) position = .ok raw) :
    IsEncodedAt data (.fixedBytes size) position raw := by
  rcases Outcome.bind_eq_ok_iff.mp decoded with ⟨word, read, decoded⟩
  rcases readBytes_eq_ok_iff.mp read with ⟨width, stands⟩
  rw [fixedBytesOfWord] at decoded
  split at decoded
  · next zero =>
      cases decoded
      have count : (word.take size).length = size := List.length_take_of_le (by rwa [width])
      have padding := eq_zeros_of_all zero
      rw [List.length_drop, width] at padding
      have split : Bytes.wordOf (word.take size) = word := by
        rw [Bytes.wordOf, count, ← padding, List.take_append_drop]
      exact ⟨word, payload?_fixedBytes_eq_some_iff.mpr
        ⟨word.take size, rfl, Nat.le_of_eq count, split⟩, stands⟩
  · cases decoded

theorem isEncodedAt_bytes (decoded : decodeAt data .bytes position = .ok raw) :
    IsEncodedAt data .bytes position raw := by
  rcases Outcome.bind_eq_ok_iff.mp decoded with ⟨octets, read, decoded⟩
  rcases readContent_eq_ok_iff.mp read with ⟨fits, stands⟩
  cases decoded
  exact ⟨_, payload?_bytes_eq_some_iff.mpr ⟨octets, rfl, fits, rfl⟩, stands⟩

theorem isEncodedAt_string (decoded : decodeAt data .string position = .ok raw) :
    IsEncodedAt data .string position raw := by
  rcases Outcome.bind_eq_ok_iff.mp decoded with ⟨octets, read, decoded⟩
  rcases readContent_eq_ok_iff.mp read with ⟨fits, stands⟩
  rw [textOfContent] at decoded
  split at decoded
  · next text found =>
      cases decoded
      rw [← Bytes.ofText_of_toText? found] at fits stands
      exact ⟨_, payload?_string_eq_some_iff.mpr ⟨text, rfl, fits, rfl⟩, stands⟩
  · cases decoded

end Words

section Static

/-- Static members of a block are encoded as what stands there, provided that this holds of their
types. -/
theorem exists_parts_of_decodeMembers (wellFormed : AllWellFormed types)
    (static : anyDynamic types = false)
    (each : ∀ type ∈ types, ∀ position raw, position ≤ data.length → type.isDynamic = false →
      decodeAt data type position = .ok raw → IsEncodedAt data type position raw)
    (within : position ≤ data.length)
    (decoded : decodeMembers data start types position = .ok raws) :
    ∃ parts, parts? types (normaliseAll types raws) = some parts ∧
      ∀ offset, StandsAt (heads offset parts) data position := by
  induction types generalizing position raws with
  | nil =>
      refine ⟨[], parts?_nil_eq_some_iff.mpr ⟨rfl, rfl⟩, fun _ => ?_⟩
      exact ⟨data.take position, data.drop position, List.length_take_of_le within,
        (List.take_append_drop position data).symm⟩
  | cons type types ih =>
      rcases decodeMembers_cons_inv decoded with ⟨place, raw, rest, rfl, first, here, others⟩
      rcases Bool.or_eq_false_iff.mp static with ⟨typeStatic, typesStatic⟩
      rw [List.forall_mem_cons] at each
      rw [here typeStatic] at first
      rcases each.1 position raw within typeStatic first with ⟨content, payload, stands⟩
      rw [← length_payload_eq_headSize wellFormed.2.1 typeStatic payload] at others
      rcases ih wellFormed.2.2 typesStatic each.2 stands.le_length others with
        ⟨parts, encoded, standRest⟩
      refine ⟨⟨type.isDynamic, content⟩ :: parts,
        parts?_cons_eq_some_iff.mpr ⟨_, _, content, parts, rfl, payload, encoded, rfl⟩, ?_⟩
      intro offset
      rw [typeStatic]
      exact stands.append (standRest offset)

theorem exists_block_of_decodeBlockAt (wellFormed : AllWellFormed types)
    (static : anyDynamic types = false)
    (each : ∀ type ∈ types, ∀ position raw, position ≤ data.length → type.isDynamic = false →
      decodeAt data type position = .ok raw → IsEncodedAt data type position raw)
    (within : start ≤ data.length) (decoded : decodeBlockAt data types start = .ok raws) :
    ∃ block, block? types (normaliseAll types raws) = some block ∧ StandsAt block data start := by
  rcases exists_parts_of_decodeMembers wellFormed static each within
    (decodeMembers_of_decodeBlockAt decoded) with ⟨parts, encoded, stands⟩
  have noTails : tails parts = [] := by
    rw [← List.length_eq_zero_iff, length_tails, tailLength_of_static static encoded]
  refine ⟨layout parts, block?_eq_some_iff.mpr
    ⟨parts, encoded, offsetsFit_of_static static encoded _, rfl⟩, ?_⟩
  rw [layout, noTails, List.append_nil]
  exact stands _

/-- What is decoded as a static value is encoded as what stood there. -/
theorem isEncodedAt_of_decodeAt (wellFormed : type.WellFormed) (position : Nat) (raw : Value)
    (within : position ≤ data.length) (static : type.isDynamic = false)
    (decoded : decodeAt data type position = .ok raw) : IsEncodedAt data type position raw := by
  induction type generalizing position raw with
  | uint bits => exact isEncodedAt_uint decoded
  | int bits => exact isEncodedAt_int wellFormed decoded
  | address => exact isEncodedAt_address decoded
  | bool => exact isEncodedAt_bool decoded
  | fixedBytes size => exact isEncodedAt_fixedBytes wellFormed.2 decoded
  | bytes | string | array => cases static
  | fixedArray item length ih =>
      rcases wellFormed with ⟨_, itemNonempty, itemWellFormed⟩
      rw [decodeAt, decodeItems_eq_decodeBlockAt] at decoded
      rcases Outcome.bind_eq_ok_iff.mp decoded with ⟨raws, decodedItems, found⟩
      cases found
      have count := length_of_decodeMembers (decodeMembers_of_decodeBlockAt decodedItems)
      rw [List.length_replicate] at count
      subst count
      have itemStatic : item.isDynamic = false := static
      rcases exists_block_of_decodeBlockAt (allWellFormed_replicate itemNonempty itemWellFormed)
        (by simp [anyDynamic_replicate, itemStatic])
        (fun type member => List.eq_of_mem_replicate member ▸ ih itemWellFormed) within
        decodedItems with ⟨block, encoded, stands⟩
      rw [normaliseAll_replicate] at encoded
      exact ⟨block, payload?_fixedArray_eq_some_iff.mpr
        ⟨raws.map (normalise item), rfl, List.length_map _, encoded⟩, stands⟩
  | tuple components ih =>
      rw [decodeAt_tuple] at decoded
      rcases Outcome.bind_eq_ok_iff.mp decoded with ⟨raws, decodedItems, found⟩
      cases found
      rcases exists_block_of_decodeBlockAt wellFormed static (fun component member =>
        ih component member (allWellFormed_iff.mp wellFormed component member).2) within
        decodedItems with ⟨block, encoded, stands⟩
      exact ⟨block, payload?_tuple_eq_some_iff.mpr
        ⟨normaliseAll components raws, rfl, encoded⟩, stands⟩

end Static

section Normal

/-- What is encoded as what stands there is decoded from there, and thus is in normal form. -/
theorem isNormal_of_isEncodedAt (wellFormed : type.WellFormed)
    (decoded : decodeAt data type position = .ok raw)
    (encodedAt : IsEncodedAt data type position raw) : IsNormal type (normalise type raw) := by
  rcases encodedAt with ⟨content, payload, stands⟩
  rcases isReadAs_payload wellFormed _ _ payload with ⟨found, reads, normalised⟩
  have reread := reads data position stands
  rw [decoded, Except.ok.injEq] at reread
  refine ⟨((exists_payload_iff type _).mp ⟨content, payload⟩).1, ?_⟩
  rw [← normalised, reread]

/-- The members of a block fit and are in normal form, provided that this holds of their types. -/
theorem isNormal_of_decodeMembers
    (each : ∀ type ∈ types, ∀ position raw, decodeAt data type position = .ok raw →
      IsNormal type (normalise type raw))
    (decoded : decodeMembers data start types position = .ok raws) :
    FitsAll Value.HasEncoding types (normaliseAll types raws) ∧
      normalForms types (normaliseAll types raws) = normaliseAll types raws := by
  induction types generalizing position raws with
  | nil =>
      cases decoded
      exact ⟨trivial, rfl⟩
  | cons type types ih =>
      rcases decodeMembers_cons_inv decoded with ⟨place, raw, rest, rfl, first, _, others⟩
      rw [List.forall_mem_cons] at each
      rcases each.1 place raw first with ⟨fits, normal⟩
      rcases ih each.2 others with ⟨fitsRest, normalRest⟩
      exact ⟨⟨fits, fitsRest⟩, by rw [normaliseAll, normalForms, normal, normalRest]⟩

theorem isNormal_of_decodeItems {count : Nat}
    (each : ∀ position raw, decodeAt data item position = .ok raw →
      IsNormal item (normalise item raw))
    (decoded : decodeBlockAt data (List.replicate count item) start = .ok raws) :
    raws.length = count ∧
      (∀ entry ∈ raws.map (normalise item), Fits Value.HasEncoding item entry) ∧
        (raws.map (normalise item)).map (normalForm item) = raws.map (normalise item) := by
  have decodedMembers := decodeMembers_of_decodeBlockAt decoded
  have length := length_of_decodeMembers decodedMembers
  rw [List.length_replicate] at length
  subst length
  rcases isNormal_of_decodeMembers (fun type member => List.eq_of_mem_replicate member ▸ each)
    decodedMembers with ⟨fits, normal⟩
  have size : (raws.map (normalise item)).length = raws.length := List.length_map _
  rw [normaliseAll_replicate, ← size] at fits normal
  rw [normalForms_replicate] at normal
  exact ⟨rfl, fitsAll_replicate_iff.mp fits, normal⟩

/-- Whatever is decoded fits its type and is in normal form. -/
theorem isNormal_of_decodeAt (wellFormed : type.WellFormed) (position : Nat) (raw : Value)
    (decoded : decodeAt data type position = .ok raw) : IsNormal type (normalise type raw) := by
  induction type generalizing position raw with
  | uint bits => exact isNormal_of_isEncodedAt wellFormed decoded (isEncodedAt_uint decoded)
  | int bits =>
      exact isNormal_of_isEncodedAt wellFormed decoded (isEncodedAt_int wellFormed decoded)
  | address => exact isNormal_of_isEncodedAt wellFormed decoded (isEncodedAt_address decoded)
  | bool => exact isNormal_of_isEncodedAt wellFormed decoded (isEncodedAt_bool decoded)
  | fixedBytes size =>
      exact isNormal_of_isEncodedAt wellFormed decoded
        (isEncodedAt_fixedBytes wellFormed.2 decoded)
  | bytes => exact isNormal_of_isEncodedAt wellFormed decoded (isEncodedAt_bytes decoded)
  | string => exact isNormal_of_isEncodedAt wellFormed decoded (isEncodedAt_string decoded)
  | fixedArray item length ih =>
      rw [decodeAt, decodeItems_eq_decodeBlockAt] at decoded
      rcases Outcome.bind_eq_ok_iff.mp decoded with ⟨raws, decodedItems, found⟩
      cases found
      rcases isNormal_of_decodeItems (ih wellFormed.2.2) decodedItems with ⟨rfl, fits, normal⟩
      exact ⟨⟨raws.map (normalise item), rfl, List.length_map _, fits⟩, congrArg Value.list normal⟩
  | array item ih =>
      rw [decodeAt] at decoded
      rcases Outcome.bind_eq_ok_iff.mp decoded with ⟨count, _, decoded⟩
      rw [decodeItems_eq_decodeBlockAt] at decoded
      rcases Outcome.bind_eq_ok_iff.mp decoded with ⟨raws, decodedItems, found⟩
      cases found
      rcases isNormal_of_decodeItems (ih wellFormed.2) decodedItems with ⟨_, fits, normal⟩
      exact ⟨⟨raws.map (normalise item), rfl, fits⟩, congrArg Value.list normal⟩
  | tuple components ih =>
      rw [decodeAt_tuple] at decoded
      rcases Outcome.bind_eq_ok_iff.mp decoded with ⟨raws, decodedItems, found⟩
      cases found
      rcases isNormal_of_decodeMembers (fun component member => ih component member
        (allWellFormed_iff.mp wellFormed component member).2)
        (decodeMembers_of_decodeBlockAt decodedItems) with ⟨fits, normal⟩
      exact ⟨⟨normaliseAll components raws, rfl, fits⟩, congrArg Value.tuple normal⟩

end Normal

end AbiType

section Blocks

variable {types : List AbiType} {data : Bytes} {values : List Value}

/-- Nothing is decoded as an empty tuple. -/
theorem nonempty_of_decode (decoded : decode types data = .ok values) :
    ∀ type ∈ types, type.isEmptyTuple = false := by
  intro type member
  rw [decode] at decoded
  split at decoded
  · cases decoded
  · next noneEmpty =>
      rw [Bool.not_eq_true, List.any_eq_false] at noneEmpty
      exact Bool.eq_false_iff.mpr (noneEmpty type member)

variable [AddressCheck]

/-- What is decoded from a block fits its types and is in normal form. -/
theorem isNormal_of_decode (constructed : ∀ type ∈ types, type.Constructed)
    (nonempty : ∀ type ∈ types, type.isEmptyTuple = false)
    (decoded : decode types data = .ok values) :
    AbiType.FitsAll Value.HasEncoding types values ∧ AbiType.normalForms types values = values := by
  rcases (decode_eq_ok_iff nonempty).mp decoded with ⟨raws, decodedBlock, rfl⟩
  exact AbiType.isNormal_of_decodeMembers
    (fun type member => AbiType.isNormal_of_decodeAt (constructed type member).wellFormed)
    (AbiType.decodeMembers_of_decodeBlockAt decodedBlock)

/-- What is decoded from a block of static values is encoded as the start of the data. -/
theorem encode_of_decode_static (constructed : ∀ type ∈ types, type.Constructed)
    (nonempty : ∀ type ∈ types, type.isEmptyTuple = false)
    (static : AbiType.anyDynamic types = false) (decoded : decode types data = .ok values) :
    encode types values = .ok (data.take (types.map AbiType.headSize).sum) := by
  have wellFormed := AbiType.allWellFormed_of_constructed constructed nonempty
  have fits := (isNormal_of_decode constructed nonempty decoded).1
  rcases (decode_eq_ok_iff nonempty).mp decoded with ⟨raws, decodedBlock, rfl⟩
  rcases AbiType.exists_block_of_decodeBlockAt wellFormed static
    (fun type member => AbiType.isEncodedAt_of_decodeAt (constructed type member).wellFormed)
    (Nat.zero_le _) decodedBlock with ⟨block, encoded, stands⟩
  have size : block.length = (types.map AbiType.headSize).sum := by
    rw [AbiType.sum_headSize_of_static static]
    exact AbiType.length_block_of_static (fun type member _ _ payload typeStatic =>
      AbiType.length_payload_of_static (constructed type member).wellFormed typeStatic payload)
      static encoded
  rw [← size, ← stands.eq_take]
  exact encode_eq_ok_iff.mpr ⟨AbiType.length_of_fitsAll fits, by simpa using nonempty, encoded⟩

/-- A topic from which a value is decoded is the encoding of that value. -/
theorem encodeTopic_of_decodeTopic {type : AbiType} {topic : Bytes} {value : Value}
    (constructed : type.Constructed) (decoded : decodeTopic type topic = .ok value) :
    encodeTopic type value = .ok topic := by
  rw [decodeTopic] at decoded
  split at decoded
  · cases decoded
  · next width =>
      rw [ne_eq, not_not] at width
      split at decoded
      · next stored =>
          rcases Outcome.bind_eq_ok_iff.mp decoded with ⟨values, decodedBlock, found⟩
          cases found
          have static : AbiType.anyDynamic [type] = false := by
            cases type <;> first | rfl | cases stored
          have nonempty : ∀ member ∈ [type], member.isEmptyTuple = false := by
            cases type <;> simp_all [AbiType.isEmptyTuple, AbiType.isValueType]
          have size : ([type].map AbiType.headSize).sum = topic.length := by
            rw [width]
            cases type <;> first | rfl | cases stored
          have encoded := encode_of_decode_static (by simpa using constructed) nonempty static
            decodedBlock
          rw [size, List.take_length] at encoded
          rw [encodeTopic, if_pos stored, encodeSingle]
          have count := (encode_eq_ok_iff.mp encoded).1
          rcases List.length_eq_one_iff.mp count.symm with ⟨value, rfl⟩
          exact encoded
      · cases decoded

end Blocks

/-- Whatever is decoded fits its types, and unless its block would take more bytes than a word can
count it is encoded and is decoded again from its encoding. (Only offsets to shared data, hundreds
of levels deep, could bring so many bytes about.) What is decoded from static data is encoded as
that data, so that no two static payloads are decoded alike, and what is decoded from a topic is
encoded as that topic. -/
theorem encode_of_decode [AddressCheck] {types : List AbiType}
    (constructed : ∀ type ∈ types, type.Constructed)
    (nonempty : ∀ type ∈ types, type.isEmptyTuple = false) :
    (∀ data values, decode types data = .ok values →
      AbiType.FitsAll Value.HasEncoding types values ∧
        ((AbiType.anyDynamic types = true → AbiType.blockLength types values < 2 ^ 256) →
          ∃ block, encode types values = .ok block ∧ decode types block = .ok values)) ∧
    (AbiType.anyDynamic types = false →
      (∀ data values, decode types data = .ok values →
        encode types values = .ok (data.take (types.map AbiType.headSize).sum)) ∧
      ∀ first second values, decode types first = .ok values → decode types second = .ok values →
        first.length = (types.map AbiType.headSize).sum →
          second.length = (types.map AbiType.headSize).sum → first = second) ∧
    (∀ type ∈ types, ∀ topic value, decodeTopic type topic = .ok value →
      encodeTopic type value = .ok topic) := by
  have wellFormed := AbiType.allWellFormed_of_constructed constructed nonempty
  refine ⟨?_, ?_, fun type member _ _ => encodeTopic_of_decodeTopic (constructed type member)⟩
  · intro data values decoded
    rcases isNormal_of_decode constructed nonempty decoded with ⟨fits, normal⟩
    refine ⟨fits, fun short => ?_⟩
    rcases AbiType.exists_block_of_blockLength wellFormed fits short with ⟨block, encodedBlock⟩
    have encoded : encode types values = .ok block :=
      encode_eq_ok_iff.mpr ⟨AbiType.length_of_fitsAll fits, by simpa using nonempty, encodedBlock⟩
    have reread := decode_block? constructed nonempty encodedBlock
    rw [normal] at reread
    exact ⟨block, encoded, reread⟩
  · intro static
    refine ⟨fun _ _ => encode_of_decode_static constructed nonempty static, ?_⟩
    intro first second values decodedFirst decodedSecond firstSize secondSize
    have encodedFirst := encode_of_decode_static constructed nonempty static decodedFirst
    have encodedSecond := encode_of_decode_static constructed nonempty static decodedSecond
    rw [List.take_of_length_le (Nat.le_of_eq firstSize)] at encodedFirst
    rw [List.take_of_length_le (Nat.le_of_eq secondSize), encodedFirst, Except.ok.injEq]
      at encodedSecond
    exact encodedSecond

set_option maxRecDepth 4000 in
/-- Of two blocks that are decoded alike one has a gap between its head and its tail; of static data
what stands behind the values is lost. -/
theorem encode_of_decode_gap :
    let types : List AbiType := [.bytes]
    let values : List Value := [.bytes [9]]
    let data : Bytes := Bytes.word 64 ++ Bytes.word 7 ++ Bytes.word 1 ++ Bytes.padRight [9]
    let topic : Bytes := List.replicate 32 255
    ((∀ type ∈ types, type.Constructed) ∧ (∀ type ∈ types, type.isEmptyTuple = false) ∧
      decode types data = .ok values ∧ AbiType.FitsAll Value.HasEncoding types values ∧
      AbiType.blockLength types values < 2 ^ 256 ∧
      ∃ block, encode types values = .ok block ∧ decode types block = .ok values ∧
        block.length < data.length) ∧
    (∀ type ∈ [AbiType.int 8], type.Constructed) ∧
    (∀ type ∈ [AbiType.int 8], type.isEmptyTuple = false) ∧
    AbiType.anyDynamic [.int 8] = false ∧
    decode [.int 8] (topic ++ [1]) = .ok [.int (-1)] ∧ encode [.int 8] [.int (-1)] = .ok topic ∧
    decodeTopic (.int 8) topic = .ok (.int (-1)) ∧
    encodeTopic (.int 8) (.int (-1)) = .ok topic := by
  intro types values data topic
  have constructed : ∀ type ∈ types, type.Constructed := by
    simpa only [types, List.forall_mem_singleton] using .bytes
  have nonempty : ∀ type ∈ types, type.isEmptyTuple = false := by decide
  have decoded : decode types data = .ok values := by rfl
  have short : AbiType.blockLength types values < 2 ^ 256 := by decide
  have constructedInt : ∀ type ∈ [AbiType.int 8], type.Constructed := by
    simpa only [List.forall_mem_singleton] using .int (.int 8) rfl
  have nonemptyInt : ∀ type ∈ [AbiType.int 8], type.isEmptyTuple = false := by decide
  have decodedInt : decode [.int 8] (topic ++ [1]) = .ok [.int (-1)] := by rfl
  have decodedTopic : decodeTopic (.int 8) topic = .ok (.int (-1)) := by rfl
  rcases (encode_of_decode constructed nonempty).1 data values decoded with ⟨fits, encodes⟩
  rcases encodes fun _ => short with ⟨block, encoded, reread⟩
  rcases encode_of_decode constructedInt nonemptyInt with ⟨_, static, topics⟩
  have size : block.length = AbiType.blockLength types values :=
    AbiType.length_block (AbiType.allWellFormed_of_constructed constructed nonempty)
      (encode_eq_ok_iff.mp encoded).2.2
  have shorter : AbiType.blockLength types values < data.length := by decide
  rw [← size] at shorter
  exact ⟨⟨constructed, nonempty, decoded, fits, short, block, encoded, reread, shorter⟩,
    constructedInt, nonemptyInt, rfl, decodedInt, (static rfl).1 _ _ decodedInt, decodedTopic,
    topics _ (List.mem_singleton_self _) _ _ decodedTopic⟩

end ContractClient
