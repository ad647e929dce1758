import ContractClient.Proofs.Abi.RoundTrip

/-!
# What a decoder reads

On a part of the data a decoder leaves that part, or it ends as on all of the data
(`AbiType.decodeAt_extend`): all that it looks at are the bytes that it reads and the length of the
data. What it finds in the part it therefore finds in all of the data.

A decoder also reads every byte of an encoding: where a value was encoded and is decoded, the
encoding lies in the data as a whole (`AbiType.liesWithin_of_decodeAt`). So no part of an encoding
is decoded, and all that can go wrong with a part is that it is left (`decode_extension`).
-/

namespace ContractClient

namespace AbiType

/-- A computation on a part of the data leaves that part, or it ends as on all of the data. -/
def LeavesOrAgrees {α : Type} (onPart onAll : Decoded α) : Prop :=
  onPart = .error .outOfBounds ∨ onPart = onAll

namespace LeavesOrAgrees

variable {α β : Type} {onPart onAll : Decoded α} {onPartNext onAllNext : α → Decoded β}

theorem refl (result : Decoded α) : LeavesOrAgrees result result :=
  .inr rfl

theorem bind (first : LeavesOrAgrees onPart onAll)
    (next : ∀ value, LeavesOrAgrees (onPartNext value) (onAllNext value)) :
    LeavesOrAgrees (onPart >>= onPartNext) (onAll >>= onAllNext) := by
  rcases first with left | same
  · rw [left]
    exact .inl rfl
  · rw [same]
    cases onAll with
    | error issue => exact .inr rfl
    | ok value => exact next value

theorem eq_of_ok {value : α} (agrees : LeavesOrAgrees onPart onAll) (found : onPart = .ok value) :
    onAll = .ok value := by
  rcases agrees with left | same
  · rw [left] at found
    cases found
  · rw [← same, found]

end LeavesOrAgrees

section Parts

variable {data suffix : Bytes} {types : List AbiType}

theorem readBytes_extend (data suffix : Bytes) (position count : Nat) :
    LeavesOrAgrees (readBytes data position count) (readBytes (data ++ suffix) position count) := by
  rw [readBytes]
  split
  · next within =>
      have read : readBytes data position count = .ok ((data.drop position).take count) := by
        rw [readBytes, if_pos within]
      rcases readBytes_eq_ok_iff.mp read with ⟨size, stands⟩
      exact .inr (readBytes_eq_ok_iff.mpr ⟨size, stands.extend suffix⟩).symm
  · exact .inl rfl

theorem readNat_extend (data suffix : Bytes) (position : Nat) :
    LeavesOrAgrees (readNat data position) (readNat (data ++ suffix) position) :=
  (readBytes_extend data suffix position Bytes.wordLength).bind fun _ => .refl _

theorem readContent_extend (data suffix : Bytes) (position : Nat) :
    LeavesOrAgrees (readContent data position) (readContent (data ++ suffix) position) :=
  (readNat_extend data suffix position).bind fun _ =>
    (readBytes_extend data suffix _ _).bind fun _ => .refl _

/-- An offset that points behind a part of the data may well point into all of the data. -/
theorem checkOffset_extend (data suffix : Bytes) (start headsEnd position : Nat) :
    LeavesOrAgrees (checkOffset data start headsEnd position)
      (checkOffset (data ++ suffix) start headsEnd position) := by
  refine (readNat_extend data suffix position).bind fun offset => ?_
  split
  · next inPart =>
      have inAll : headsEnd ≤ start + offset ∧ start + offset < (data ++ suffix).length := by
        rw [List.length_append]
        omega
      rw [if_pos inAll]
      exact .refl _
  · exact .inl rfl

theorem checkMembers_extend
    (each : ∀ type ∈ types, ∀ position,
      LeavesOrAgrees (decodeAt data type position) (decodeAt (data ++ suffix) type position))
    (start headsEnd position : Nat) :
    LeavesOrAgrees (checkMembers data start headsEnd types position)
      (checkMembers (data ++ suffix) start headsEnd types position) := by
  induction types generalizing position with
  | nil => exact .refl _
  | cons type types ih =>
      rw [List.forall_mem_cons] at each
      rw [checkMembers, checkMembers]
      split
      · exact (checkOffset_extend data suffix start headsEnd position).bind fun _ => ih each.2 _
      · refine .bind ?_ fun _ => ih each.2 _
        exact (each.1 position).bind fun _ => .refl _

theorem decodeMembers_extend
    (each : ∀ type ∈ types, ∀ position,
      LeavesOrAgrees (decodeAt data type position) (decodeAt (data ++ suffix) type position))
    (start position : Nat) :
    LeavesOrAgrees (decodeMembers data start types position)
      (decodeMembers (data ++ suffix) start types position) := by
  induction types generalizing position with
  | nil => exact .refl _
  | cons type types ih =>
      rw [List.forall_mem_cons] at each
      rw [decodeMembers, decodeMembers]
      split
      · refine .bind ?_ fun _ => (ih each.2 _).bind fun _ => .refl _
        exact (readNat_extend data suffix position).bind fun offset => each.1 (start + offset)
      · exact (each.1 position).bind fun _ => (ih each.2 _).bind fun _ => .refl _

theorem decodeBlockAt_extend_of_forall
    (each : ∀ type ∈ types, ∀ position,
      LeavesOrAgrees (decodeAt data type position) (decodeAt (data ++ suffix) type position))
    (start : Nat) :
    LeavesOrAgrees (decodeBlockAt data types start)
      (decodeBlockAt (data ++ suffix) types start) := by
  rw [decodeBlockAt, decodeBlockAt]
  split
  · exact (checkMembers_extend each _ _ _).bind fun _ => decodeMembers_extend each _ _
  · exact decodeMembers_extend each _ _

/-- On a part of the data a decoder leaves that part, or it ends as on all of the data. -/
theorem decodeAt_extend (data suffix : Bytes) (type : AbiType) (position : Nat) :
    LeavesOrAgrees (decodeAt data type position) (decodeAt (data ++ suffix) type position) := by
  induction type generalizing position with
  | uint | int | bool => exact (readNat_extend data suffix position).bind fun _ => .refl _
  | address | fixedBytes => exact (readBytes_extend data suffix position _).bind fun _ => .refl _
  | bytes | string => exact (readContent_extend data suffix position).bind fun _ => .refl _
  | fixedArray item length ih =>
      rw [decodeAt, decodeAt, decodeItems_eq_decodeBlockAt, decodeItems_eq_decodeBlockAt]
      refine .bind (decodeBlockAt_extend_of_forall ?_ _) fun _ => .refl _
      intro type member
      rw [List.eq_of_mem_replicate member]
      exact ih
  | array item ih =>
      rw [decodeAt, decodeAt]
      refine (readNat_extend data suffix position).bind fun count => ?_
      rw [decodeItems_eq_decodeBlockAt, decodeItems_eq_decodeBlockAt]
      refine .bind (decodeBlockAt_extend_of_forall ?_ _) fun _ => .refl _
      intro type member
      rw [List.eq_of_mem_replicate member]
      exact ih
  | tuple components ih =>
      rw [decodeAt_tuple, decodeAt_tuple]
      exact .bind (decodeBlockAt_extend_of_forall ih _) fun _ => .refl _

theorem decodeBlockAt_extend (data suffix : Bytes) (types : List AbiType) (start : Nat) :
    LeavesOrAgrees (decodeBlockAt data types start) (decodeBlockAt (data ++ suffix) types start) :=
  decodeBlockAt_extend_of_forall (fun type _ => decodeAt_extend data suffix type) start

end Parts

section Encodings

variable {data rest content : Bytes} {type : AbiType} {types : List AbiType} {value : Value}
  {values : List Value} {parts : List Part} {start offset position number : Nat}

/-- A payload lies in a part of the data, where a decoder found a value: it lies there as a whole.
Only an empty payload may lie behind the part. -/
def LiesWithin (part content : Bytes) (position : Nat) : Prop :=
  content = [] ∨ position + content.length ≤ part.length

/-- Whatever is encoded for some types lies as a whole in every part of the data in which it is
decoded. -/
def AllReadThrough (data rest : Bytes) (types : List AbiType) : Prop :=
  ∀ type ∈ types, ∀ value content position raw, payload? type value = some content →
    StandsAt content (data ++ rest) position → decodeAt data type position = .ok raw →
      LiesWithin data content position

theorem end_le_of_readBytes {count : Nat} {octets : Bytes}
    (read : readBytes data position count = .ok octets) : position + count ≤ data.length := by
  rcases readBytes_eq_ok_iff.mp read with ⟨rfl, stands⟩
  exact stands.le_length

theorem end_le_of_readNat (read : readNat data position = .ok number) :
    position + Bytes.wordLength ≤ data.length := by
  rcases Outcome.bind_eq_ok_iff.mp read with ⟨word, readWord, _⟩
  exact end_le_of_readBytes readWord

/-- A number that is read in a part of the data is the one that stands in all of the data. -/
theorem eq_of_readNat {found : Nat} (stands : readNat (data ++ rest) position = .ok number)
    (read : readNat data position = .ok found) : found = number := by
  have same := (readNat_extend data rest position).eq_of_ok read
  rw [stands, Except.ok.injEq] at same
  exact same.symm

theorem liesWithin_of_readContent {octets found : Bytes} (fits : octets.length < 2 ^ 256)
    (stands : StandsAt (Bytes.word octets.length ++ Bytes.padRight octets) (data ++ rest) position)
    (read : readContent data position = .ok found) :
    LiesWithin data (Bytes.word octets.length ++ Bytes.padRight octets) position := by
  rcases Outcome.bind_eq_ok_iff.mp read with ⟨length, readLength, read⟩
  rcases Outcome.bind_eq_ok_iff.mp read with ⟨padded, readPadded, _⟩
  rw [eq_of_readNat (stands.left.readNat fits) readLength] at readPadded
  have within := end_le_of_readBytes readPadded
  right
  rw [List.length_append, Bytes.length_word, Bytes.length_padRight]
  omega

/-- The heads that are left lie within the part, and so do the tails. -/
theorem end_le_of_decodeMembers (wellFormed : AllWellFormed types)
    (readThrough : AllReadThrough data rest types) (encoded : parts? types values = some parts)
    {raws : List Value} (placed : Placed offset parts (data ++ rest) start position)
    (decoded : decodeMembers data start types position = .ok raws) :
    (headLength parts = 0 ∨ position + headLength parts ≤ data.length) ∧
      (tailLength parts = 0 ∨ start + offset + tailLength parts ≤ data.length) := by
  induction types generalizing values parts offset position raws with
  | nil =>
      rcases parts?_nil_eq_some_iff.mp encoded with ⟨rfl, rfl⟩
      exact ⟨.inl rfl, .inl rfl⟩
  | cons type types ih =>
      rcases parts?_cons_eq_some_iff.mp encoded with
        ⟨value, others, content, parts, rfl, payload, encodedRest, rfl⟩
      have readRest : AllReadThrough data rest types :=
        fun type member => readThrough type (by simp [member])
      rw [decodeMembers] at decoded
      cases dynamic : type.isDynamic with
      | true =>
          rw [dynamic] at placed decoded
          rcases Outcome.bind_eq_ok_iff.mp decoded with ⟨raw, followed, decoded⟩
          rcases Outcome.bind_eq_ok_iff.mp decoded with ⟨othersRaw, decodedRest, _⟩
          rcases Outcome.bind_eq_ok_iff.mp followed with ⟨found, readOffset, decodedTail⟩
          rw [headSize_of_isDynamic dynamic] at decodedRest
          rw [eq_of_readNat placed.readNat readOffset] at decodedTail
          have headWithin := end_le_of_readNat readOffset
          have tailWithin := readThrough type (by simp) value content _ raw payload placed.tail
            decodedTail
          rcases ih wellFormed.2.2 readRest encodedRest placed.afterOffset decodedRest with
            ⟨heads, tails⟩
          simp only [headLength, tailLength, if_true]
          constructor
          · omega
          · rcases tailWithin with rfl | tailWithin
            · simpa using tails
            · omega
      | false =>
          rw [dynamic] at placed decoded
          rcases Outcome.bind_eq_ok_iff.mp decoded with ⟨raw, decodedHead, decoded⟩
          rcases Outcome.bind_eq_ok_iff.mp decoded with ⟨othersRaw, decodedRest, _⟩
          rw [← length_payload_eq_headSize wellFormed.2.1 dynamic payload] at decodedRest
          have headWithin := readThrough type (by simp) value content _ raw payload placed.head
            decodedHead
          rcases ih wellFormed.2.2 readRest encodedRest placed.afterHead decodedRest with
            ⟨heads, tails⟩
          simp only [headLength, tailLength, Bool.false_eq_true, if_false, Nat.zero_add]
          refine ⟨?_, tails⟩
          rcases headWithin with rfl | headWithin
          · simpa using heads
          · omega

theorem liesWithin_of_decodeBlockAt (wellFormed : AllWellFormed types)
    (readThrough : AllReadThrough data rest types) {block : Bytes}
    (encoded : block? types values = some block) (stands : StandsAt block (data ++ rest) start)
    {raws : List Value} (decoded : decodeBlockAt data types start = .ok raws) :
    LiesWithin data block start := by
  rcases block?_eq_some_iff.mp encoded with ⟨parts, encodedParts, fits, rfl⟩
  rcases end_le_of_decodeMembers wellFormed readThrough encodedParts
    (Placed.ofLayout stands fits) (decodeMembers_of_decodeBlockAt decoded) with ⟨heads, tails⟩
  rw [LiesWithin, ← List.length_eq_zero_iff, length_layout]
  omega

theorem liesWithin_of_word (size : content.length = Bytes.wordLength)
    (within : position + Bytes.wordLength ≤ data.length) : LiesWithin data content position := by
  right
  rwa [size]

/-- Where a value was encoded and a decoder finds one, the whole encoding lies in the data. -/
theorem liesWithin_of_decodeAt (wellFormed : type.WellFormed) (value : Value) (content : Bytes)
    (position : Nat) (raw : Value) (payload : payload? type value = some content)
    (stands : StandsAt content (data ++ rest) position)
    (decoded : decodeAt data type position = .ok raw) : LiesWithin data content position := by
  induction type generalizing value content position raw with
  | uint bits =>
      rcases payload?_uint_eq_some_iff.mp payload with ⟨number, _, _, rfl⟩
      rcases Outcome.bind_eq_ok_iff.mp decoded with ⟨found, read, _⟩
      exact liesWithin_of_word (Bytes.length_word _) (end_le_of_readNat read)
  | int bits =>
      rcases payload?_int_eq_some_iff.mp payload with ⟨number, _, _, rfl⟩
      rcases Outcome.bind_eq_ok_iff.mp decoded with ⟨found, read, _⟩
      exact liesWithin_of_word (Bytes.length_word _) (end_le_of_readNat read)
  | address =>
      rcases payload?_address_eq_some_iff.mp payload with ⟨address, found, rfl⟩
      rcases Outcome.bind_eq_ok_iff.mp decoded with ⟨word, read, _⟩
      exact liesWithin_of_word (length_addressWord (length_of_acceptedAddress? found))
        (end_le_of_readBytes read)
  | bool =>
      rcases payload?_bool_eq_some_iff.mp payload with ⟨flag, _, rfl⟩
      rcases Outcome.bind_eq_ok_iff.mp decoded with ⟨found, read, _⟩
      exact liesWithin_of_word (Bytes.length_word _) (end_le_of_readNat read)
  | fixedBytes size =>
      rcases payload?_fixedBytes_eq_some_iff.mp payload with ⟨octets, _, short, rfl⟩
      rcases Outcome.bind_eq_ok_iff.mp decoded with ⟨word, read, _⟩
      exact liesWithin_of_word (Bytes.length_wordOf (Nat.le_trans short wellFormed.2))
        (end_le_of_readBytes read)
  | bytes =>
      rcases payload?_bytes_eq_some_iff.mp payload with ⟨octets, _, fits, rfl⟩
      rcases Outcome.bind_eq_ok_iff.mp decoded with ⟨found, read, _⟩
      exact liesWithin_of_readContent fits stands read
  | string =>
      rcases payload?_string_eq_some_iff.mp payload with ⟨text, _, fits, rfl⟩
      rcases Outcome.bind_eq_ok_iff.mp decoded with ⟨found, read, _⟩
      exact liesWithin_of_readContent fits stands read
  | fixedArray item length ih =>
      rcases wellFormed with ⟨_, itemNonempty, itemWellFormed⟩
      rcases payload?_fixedArray_eq_some_iff.mp payload with ⟨items, _, _, encoded⟩
      rw [decodeAt, decodeItems_eq_decodeBlockAt] at decoded
      rcases Outcome.bind_eq_ok_iff.mp decoded with ⟨raws, decodedItems, _⟩
      exact liesWithin_of_decodeBlockAt (allWellFormed_replicate itemNonempty itemWellFormed)
        (fun type member => List.eq_of_mem_replicate member ▸ ih itemWellFormed) encoded stands
        decodedItems
  | array item ih =>
      rcases wellFormed with ⟨itemNonempty, itemWellFormed⟩
      rcases payload?_array_eq_some_iff.mp payload with ⟨items, body, _, fits, encoded, rfl⟩
      rcases Outcome.bind_eq_ok_iff.mp decoded with ⟨count, readCount, decoded⟩
      rw [eq_of_readNat (stands.left.readNat fits) readCount, decodeItems_eq_decodeBlockAt]
        at decoded
      rcases Outcome.bind_eq_ok_iff.mp decoded with ⟨raws, decodedItems, _⟩
      have bodyStands := stands.right
      rw [Bytes.length_word] at bodyStands
      have countWithin := end_le_of_readNat readCount
      have bodyWithin := liesWithin_of_decodeBlockAt
        (allWellFormed_replicate itemNonempty itemWellFormed)
        (fun type member => List.eq_of_mem_replicate member ▸ ih itemWellFormed) encoded
        bodyStands decodedItems
      right
      rw [List.length_append, Bytes.length_word]
      rcases bodyWithin with rfl | bodyWithin
      · simpa using countWithin
      · omega
  | tuple components ih =>
      rcases payload?_tuple_eq_some_iff.mp payload with ⟨items, _, encoded⟩
      rw [decodeAt_tuple] at decoded
      rcases Outcome.bind_eq_ok_iff.mp decoded with ⟨raws, decodedItems, _⟩
      exact liesWithin_of_decodeBlockAt wellFormed
        (fun component member => ih component member
          (allWellFormed_iff.mp wellFormed component member).2) encoded stands decodedItems

end Encodings

end AbiType

/-- Only an encoding as a whole is decoded, and no part of it. -/
theorem eq_of_decode_part {types : List AbiType} {values found : List Value} {part block : Bytes}
    (constructed : ∀ type ∈ types, type.Constructed) (encoded : encode types values = .ok block)
    (starts : part <+: block) (decoded : decode types part = .ok found) : part = block := by
  rcases starts with ⟨rest, rfl⟩
  rcases encode_eq_ok_iff.mp encoded with ⟨_, noneEmpty, encodedBlock⟩
  have nonempty : ∀ type ∈ types, type.isEmptyTuple = false := by simpa using noneEmpty
  have wellFormed := AbiType.allWellFormed_of_constructed constructed nonempty
  rcases (decode_eq_ok_iff nonempty).mp decoded with ⟨raws, decodedPart, _⟩
  have readThrough : AbiType.AllReadThrough part rest types := fun type member =>
    AbiType.liesWithin_of_decodeAt (AbiType.allWellFormed_iff.mp wellFormed type member).2
  have within := AbiType.liesWithin_of_decodeBlockAt wellFormed readThrough encodedBlock
    (AbiType.StandsAt.start _) decodedPart
  rw [AbiType.LiesWithin, List.append_eq_nil_iff, List.length_append, Nat.zero_add] at within
  have restEmpty : rest = [] := by
    rcases within with ⟨_, empty⟩ | short
    · exact empty
    · exact List.length_eq_zero_iff.mp (by omega)
  simp [restEmpty]

/-- What is decoded from data is decoded from all data that starts with it; and from a part of an
encoding nothing is decoded, because it is left. -/
theorem decode_extension {types : List AbiType} (constructed : ∀ type ∈ types, type.Constructed)
    (nonempty : ∀ type ∈ types, type.isEmptyTuple = false) :
    (∀ data values suffix, decode types data = .ok values →
      decode types (data ++ suffix) = .ok values) ∧
    (∀ values block part, encode types values = .ok block → part <+: block → part ≠ block →
      DecodingFails types part "OUT_OF_BOUNDS") := by
  constructor
  · intro data values suffix decoded
    rcases (decode_eq_ok_iff nonempty).mp decoded with ⟨raws, decodedBlock, normalised⟩
    exact (decode_eq_ok_iff nonempty).mpr
      ⟨raws, (AbiType.decodeBlockAt_extend data suffix types 0).eq_of_ok decodedBlock, normalised⟩
  · rintro values _ part encoded ⟨rest, rfl⟩ proper
    rcases encode_eq_ok_iff.mp encoded with ⟨_, _, encodedBlock⟩
    rcases (decode_eq_ok_iff nonempty).mp (decode_block? constructed nonempty encodedBlock) with
      ⟨raws, decodedAll, normalised⟩
    have agrees : AbiType.LeavesOrAgrees (AbiType.decodeBlock types part)
        (AbiType.decodeBlock types (part ++ rest)) :=
      AbiType.decodeBlockAt_extend part rest types 0
    rcases agrees with left | same
    · exact decodingFails_of_decodeBlock nonempty left
    · have decoded := (decode_eq_ok_iff nonempty).mpr
        ⟨raws, same.trans decodedAll, normalised⟩
      exact absurd (eq_of_decode_part constructed encoded (List.prefix_append part rest) decoded)
        proper

/-- Of a text in an array nothing is decoded when one byte of its padding is missing. -/
theorem decode_extension_text :
    let types : List AbiType := [.array .string, .bool]
    let values : List Value := [.list [.text "é"], .bool true]
    (∀ type ∈ types, type.Constructed) ∧ (∀ type ∈ types, type.isEmptyTuple = false) ∧
      ∃ block, encode types values = .ok block ∧ decode types (block ++ [1]) = .ok values ∧
        block.dropLast <+: block ∧ block.dropLast ≠ block ∧
          DecodingFails types block.dropLast "OUT_OF_BOUNDS" := by
  intro types values
  have constructed : ∀ type ∈ types, type.Constructed := by
    simp only [types, List.forall_mem_cons, List.not_mem_nil, false_implies, implies_true,
      and_true]
    exact ⟨.array .string rfl, .bool⟩
  have nonempty : ∀ type ∈ types, type.isEmptyTuple = false := by decide
  obtain ⟨block, encoded⟩ : ∃ block, encode types values = .ok block := ⟨_, rfl⟩
  have proper : block.dropLast ≠ block := by
    intro same
    have width : Bytes.wordLength ≤ block.length :=
      AbiType.wordLength_le_length_block
        (AbiType.allWellFormed_of_constructed constructed nonempty)
        (encode_eq_ok_iff.mp encoded).2.2
    have shorter := congrArg List.length same
    have positive : 0 < Bytes.wordLength := by decide
    rw [List.length_dropLast] at shorter
    omega
  have decoded := decode_block? constructed nonempty (encode_eq_ok_iff.mp encoded).2.2
  have extension := decode_extension constructed nonempty
  exact ⟨constructed, nonempty, block, encoded, extension.1 block values [1] decoded,
    block.dropLast_prefix, proper,
    extension.2 values block block.dropLast encoded block.dropLast_prefix proper⟩

end ContractClient
