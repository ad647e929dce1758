import ContractClient.Proofs.Abi.NormalForm

/-!
# Round trips

What was encoded is read back. `AbiType.Placed` is the invariant with which a decoder goes through
the members of a block: the heads that are left stand where it reads, and the tails that are left
stand where the next offset points to. With it, a block is read like its members, whether or not all
of them can be read (`AbiType.decodeBlockAt_of_readsEach`). `AbiType.isReadAs_payload` is the
induction over types: every payload is read as the normal form of its value. `decode_encode` is the
statement for whole blocks.
-/

namespace ContractClient

namespace AbiType

/-- What is left of a block: its heads stand at a position, and its tails at the offset of the next
one, counted from the start of the block. -/
structure Placed (offset : Nat) (parts : List Part) (data : Bytes) (start position : Nat) :
    Prop where
  heads : StandsAt (heads offset parts) data position
  tails : StandsAt (tails parts) data (start + offset)
  fits : offsetsFit offset parts = true

namespace Placed

variable {offset start position : Nat} {parts : List Part} {content data : Bytes}

theorem ofLayout (stands : StandsAt (layout parts) data start)
    (fits : offsetsFit (headLength parts) parts = true) :
    Placed (headLength parts) parts data start start where
  heads := stands.left
  tails := by
    have tails := stands.right
    rwa [length_heads] at tails
  fits := fits

theorem readNat (placed : Placed offset (⟨true, content⟩ :: parts) data start position) :
    readNat data position = .ok offset := by
  have fits : offset < 2 ^ 256 := by
    have := placed.fits
    simp only [offsetsFit, fitsWord, if_true, Bool.and_eq_true, decide_eq_true_eq] at this
    exact this.1
  exact placed.heads.left.readNat fits

theorem tail (placed : Placed offset (⟨true, content⟩ :: parts) data start position) :
    StandsAt content data (start + offset) :=
  placed.tails.left

theorem afterOffset (placed : Placed offset (⟨true, content⟩ :: parts) data start position) :
    Placed (offset + content.length) parts data start (position + Bytes.wordLength) where
  heads := by
    have heads := placed.heads.right
    rwa [Bytes.length_word] at heads
  tails := by
    have tails := placed.tails.right
    rwa [Nat.add_assoc] at tails
  fits := by
    have fits := placed.fits
    simp only [offsetsFit, if_true, Bool.and_eq_true] at fits
    exact fits.2

theorem head (placed : Placed offset (⟨false, content⟩ :: parts) data start position) :
    StandsAt content data position :=
  placed.heads.left

theorem afterHead (placed : Placed offset (⟨false, content⟩ :: parts) data start position) :
    Placed offset parts data start (position + content.length) where
  heads := placed.heads.right
  tails := placed.tails
  fits := placed.fits

end Placed

section Members

variable {types : List AbiType} {values : List Value} {parts : List Part}
  {results : List (Decoded Value)} {data : Bytes} {start headsEnd offset position : Nat}

/-- How the payloads of the members of a block are read wherever they stand. -/
inductive ReadsEach : List AbiType → List Part → List (Decoded Value) → Prop where
  | nil : ReadsEach [] [] []
  | cons {type : AbiType} {types : List AbiType} {content : Bytes} {parts : List Part}
      {result : Decoded Value} {results : List (Decoded Value)}
      (reads : ∀ data position, StandsAt content data position →
        decodeAt data type position = result)
      (size : type.isDynamic = false → content.length = type.headSize)
      (width : 0 < content.length)
      (rest : ReadsEach types parts results) :
      ReadsEach (type :: types) (⟨type.isDynamic, content⟩ :: parts) (result :: results)

/-- Reading several values ends with all of them, or with what is wrong with one of them. -/
def EndsAs (results : List (Decoded Value)) (ending : Decoded (List Value)) : Prop :=
  (∃ raws, results = raws.map .ok ∧ ending = .ok raws) ∨
    ∃ issue, .error issue ∈ results ∧ ending = .error issue

/-- The second pass reads the members of a block, up to the first one with which something is
wrong. -/
theorem decodeMembers_of_readsEach (each : ReadsEach types parts results)
    (placed : Placed offset parts data start position) :
    EndsAs results (decodeMembers data start types position) := by
  induction each generalizing offset position with
  | nil => exact .inl ⟨[], rfl, rfl⟩
  | @cons type types content parts result results reads size width rest ih =>
      obtain ⟨reads, others⟩ : decodeMembers data start (type :: types) position =
            (do return (← result) :: (← decodeMembers data start types
              (position + type.headSize))) ∧
          EndsAs results (decodeMembers data start types (position + type.headSize)) := by
        cases dynamic : type.isDynamic with
        | true =>
            rw [dynamic] at placed
            rw [headSize_of_isDynamic dynamic]
            refine ⟨?_, ih placed.afterOffset⟩
            simp only [decodeMembers, dynamic, if_true, followOffset, placed.readNat,
              Outcome.ok_bind, reads _ _ placed.tail, headSize_of_isDynamic dynamic,
              Outcome.pure_eq_ok]
        | false =>
            rw [dynamic] at placed
            refine ⟨?_, size dynamic ▸ ih placed.afterHead⟩
            simp only [decodeMembers, dynamic, Bool.false_eq_true, if_false,
              reads _ _ placed.head, Outcome.pure_eq_ok]
      rw [reads]
      cases result with
      | error issue => exact .inr ⟨issue, List.mem_cons_self, rfl⟩
      | ok raw =>
          rcases others with ⟨raws, rfl, found⟩ | ⟨issue, member, failed⟩
          · exact .inl ⟨raw :: raws, rfl, by rw [found]; rfl⟩
          · exact .inr ⟨issue, List.mem_cons_of_mem _ member, by rw [failed]; rfl⟩

/-- The first pass accepts the members of a block, since every offset points behind the heads and to
a payload that is not empty, or it ends with what is wrong with one of them. -/
theorem checkMembers_of_readsEach (each : ReadsEach types parts results)
    (placed : Placed offset parts data start position) (behind : headsEnd ≤ start + offset) :
    checkMembers data start headsEnd types position = .ok () ∨
      ∃ issue, .error issue ∈ results ∧
        checkMembers data start headsEnd types position = .error issue := by
  induction each generalizing offset position with
  | nil => exact .inl rfl
  | @cons type types content parts result results reads size width rest ih =>
      cases dynamic : type.isDynamic with
      | true =>
          rw [dynamic] at placed
          have within : start + offset < data.length := by
            have contentWithin := placed.tail.le_length
            omega
          simp only [checkMembers, dynamic, if_true, checkOffset, placed.readNat,
            Outcome.ok_bind, behind, within, and_self, headSize_of_isDynamic dynamic]
          rcases ih placed.afterOffset (by omega) with checked | ⟨issue, member, failed⟩
          · exact .inl checked
          · exact .inr ⟨issue, List.mem_cons_of_mem _ member, failed⟩
      | false =>
          rw [dynamic] at placed
          simp only [checkMembers, dynamic, Bool.false_eq_true, if_false, reads _ _ placed.head]
          cases result with
          | error issue => exact .inr ⟨issue, List.mem_cons_self, rfl⟩
          | ok raw =>
              rcases ih placed.afterHead behind with checked | ⟨issue, member, failed⟩
              · rw [size dynamic] at checked
                exact .inl checked
              · rw [size dynamic] at failed
                exact .inr ⟨issue, List.mem_cons_of_mem _ member, failed⟩

theorem headLength_of_readsEach (each : ReadsEach types parts results) :
    headLength parts = (types.map headSize).sum := by
  induction each with
  | nil => rfl
  | @cons type types content parts result results reads size width rest ih =>
      rw [headLength, List.map_cons, List.sum_cons, ih]
      cases dynamic : type.isDynamic with
      | true => rw [headSize_of_isDynamic dynamic, if_pos rfl]
      | false => rw [if_neg Bool.false_ne_true, size dynamic]

theorem sum_headWords_le (wellFormed : AllWellFormed types) :
    Bytes.wordLength * (types.map headWords).sum ≤ (types.map headSize).sum := by
  induction types with
  | nil => exact Nat.le_refl _
  | cons type types ih =>
      have typeWords := headWords_le wellFormed.2.1 wellFormed.1
      have typesWords := ih wellFormed.2.2
      simp only [List.map_cons, List.sum_cons, Nat.mul_add]
      omega

/-- Wherever a block stands, it is read like its members. -/
theorem decodeBlockAt_of_readsEach (wellFormed : AllWellFormed types)
    (each : ReadsEach types parts results) (stands : StandsAt (layout parts) data start)
    (fits : offsetsFit (headLength parts) parts = true) :
    EndsAs results (decodeBlockAt data types start) := by
  have placed := Placed.ofLayout stands fits
  have behind : headsEnd types start ≤ start + headLength parts := by
    rw [headsEnd, headLength_of_readsEach each]
    exact Nat.add_le_add_left (sum_headWords_le wellFormed) start
  have ends := decodeMembers_of_readsEach each placed
  rw [decodeBlockAt]
  split
  · rcases checkMembers_of_readsEach each placed behind with checked | ⟨issue, member, failed⟩
    · rwa [checked]
    · exact .inr ⟨issue, member, by rw [failed]; rfl⟩
  · exact ends

theorem EndsAs.eq_ok {raws : List Value} {ending : Decoded (List Value)}
    (ends : EndsAs (raws.map .ok) ending) : ending = .ok raws := by
  rcases ends with ⟨others, same, found⟩ | ⟨issue, member, _⟩
  · have injective : Function.Injective (Except.ok : Value → Decoded Value) :=
      fun _ _ same => Except.ok.inj same
    rw [List.map_injective_iff.mpr injective same, found]
  · simp at member

theorem normaliseAll_replicate (item : AbiType) (values : List Value) :
    normaliseAll (List.replicate values.length item) values = values.map (normalise item) := by
  induction values with
  | nil => rfl
  | cons value values ih =>
      rw [List.length_cons, List.replicate_succ, normaliseAll, ih, List.map_cons]

theorem normalForms_replicate (item : AbiType) (values : List Value) :
    normalForms (List.replicate values.length item) values = values.map (normalForm item) := by
  induction values with
  | nil => rfl
  | cons value values ih =>
      rw [List.length_cons, List.replicate_succ, normalForms, ih, List.map_cons]

variable [AddressCheck]

/-- Everything that was encoded for some types is read as its normal form. -/
def AllReadBack (types : List AbiType) : Prop :=
  ∀ type ∈ types, ∀ value content, payload? type value = some content →
    IsReadAs type content (normalForm type value)

theorem readsEach_of_parts? (wellFormed : AllWellFormed types) (readBack : AllReadBack types)
    (encoded : parts? types values = some parts) :
    ∃ raws, ReadsEach types parts (raws.map .ok) ∧ raws.length = types.length ∧
      normaliseAll types raws = normalForms types values := by
  induction types generalizing values parts with
  | nil =>
      rcases parts?_nil_eq_some_iff.mp encoded with ⟨rfl, rfl⟩
      exact ⟨[], .nil, rfl, rfl⟩
  | cons type types ih =>
      rcases parts?_cons_eq_some_iff.mp encoded with
        ⟨value, rest, content, parts, rfl, payload, encodedRest, rfl⟩
      rcases readBack type (by simp) value content payload with ⟨raw, readsRaw, normalised⟩
      have readRest : AllReadBack types := fun type member => readBack type (by simp [member])
      rcases ih wellFormed.2.2 readRest encodedRest with
        ⟨raws, readsRaws, count, allNormalised⟩
      have width := wordLength_le_length_payload wellFormed.2.1 wellFormed.1 payload
      have positive : 0 < Bytes.wordLength := by decide
      refine ⟨raw :: raws, .cons readsRaw ?_ (by omega) readsRaws, by simp [count],
        by rw [normaliseAll, normalForms, normalised, allNormalised]⟩
      exact fun static => length_payload_eq_headSize wellFormed.2.1 static payload

/-- A block is read as the normal forms of its members wherever it stands. -/
theorem decodeBlockAt_block? (wellFormed : AllWellFormed types) (readBack : AllReadBack types)
    {block : Bytes} (encoded : block? types values = some block) :
    ∃ raws, (∀ data start, StandsAt block data start →
        decodeBlockAt data types start = .ok raws) ∧
      raws.length = types.length ∧ normaliseAll types raws = normalForms types values := by
  rcases block?_eq_some_iff.mp encoded with ⟨parts, encodedParts, fits, rfl⟩
  rcases readsEach_of_parts? wellFormed readBack encodedParts with
    ⟨raws, each, count, normalised⟩
  exact ⟨raws, fun _ _ stands => (decodeBlockAt_of_readsEach wellFormed each stands fits).eq_ok,
    count, normalised⟩

/-- The items of an array are read as their normal forms wherever their block stands. -/
theorem decodeBlockAt_block?_replicate {item : AbiType} (wellFormed : item.WellFormed)
    (nonempty : item.isEmptyTuple = false)
    (readBack : ∀ value content, payload? item value = some content →
      IsReadAs item content (normalForm item value))
    {items : List Value} {block : Bytes}
    (encoded : block? (List.replicate items.length item) items = some block) :
    ∃ raws, (∀ data start, StandsAt block data start →
        decodeBlockAt data (List.replicate items.length item) start = .ok raws) ∧
      raws.map (normalise item) = items.map (normalForm item) := by
  have allReadBack : AllReadBack (List.replicate items.length item) := by
    intro type member
    rw [List.eq_of_mem_replicate member]
    exact readBack
  rcases decodeBlockAt_block? (allWellFormed_replicate nonempty wellFormed) allReadBack encoded with
    ⟨raws, reads, count, normalised⟩
  rw [List.length_replicate] at count
  refine ⟨raws, reads, ?_⟩
  rw [← normaliseAll_replicate, ← normalForms_replicate, count]
  exact normalised

end Members

/-- Every payload is read as the normal form of its value, wherever it stands. -/
theorem isReadAs_payload [AddressCheck] {type : AbiType} (wellFormed : type.WellFormed)
    (value : Value) (content : Bytes) (payload : payload? type value = some content) :
    IsReadAs type content (normalForm type value) := by
  -- The hypothesis is for all values and positions: the offsets of a block count from its start.
  induction type generalizing value content with
  | uint bits => exact isReadAs_uint wellFormed payload
  | int bits => exact isReadAs_int wellFormed payload
  | address => exact isReadAs_address payload
  | bool => exact isReadAs_bool payload
  | fixedBytes size => exact isReadAs_fixedBytes wellFormed.2 payload
  | bytes => exact isReadAs_bytes payload
  | string => exact isReadAs_string payload
  | fixedArray item length ih =>
      rcases wellFormed with ⟨_, itemNonempty, itemWellFormed⟩
      rcases payload?_fixedArray_eq_some_iff.mp payload with ⟨items, found, rfl, encoded⟩
      have readBack := ih itemWellFormed
      rcases decodeBlockAt_block?_replicate itemWellFormed itemNonempty readBack encoded with
        ⟨raws, reads, normalised⟩
      refine ⟨.tuple raws, ?_, by simp [normalise, normalForm, found, normalised]⟩
      intro data position stands
      rw [decodeAt, decodeItems_eq_decodeBlockAt, reads _ _ stands]
      rfl
  | array item ih =>
      rcases wellFormed with ⟨itemNonempty, itemWellFormed⟩
      rcases payload?_array_eq_some_iff.mp payload with ⟨items, body, found, fits, encoded, rfl⟩
      have readBack := ih itemWellFormed
      rcases decodeBlockAt_block?_replicate itemWellFormed itemNonempty readBack encoded with
        ⟨raws, reads, normalised⟩
      refine ⟨.tuple raws, ?_, by simp [normalise, normalForm, found, normalised]⟩
      intro data position stands
      have bodyStands := stands.right
      rw [Bytes.length_word] at bodyStands
      rw [decodeAt, stands.left.readNat fits, Outcome.ok_bind, decodeItems_eq_decodeBlockAt,
        reads _ _ bodyStands]
      rfl
  | tuple components ih =>
      rcases payload?_tuple_eq_some_iff.mp payload with ⟨items, found, encoded⟩
      have readBack : AllReadBack components := fun component member =>
        ih component member (allWellFormed_iff.mp wellFormed component member).2
      rcases decodeBlockAt_block? wellFormed readBack encoded with ⟨raws, reads, _, normalised⟩
      refine ⟨.tuple raws, ?_, by simp [normalise, normalForm, found, normalised]⟩
      intro data position stands
      rw [decodeAt_tuple, reads _ _ stands]
      rfl

end AbiType

theorem encode_eq_ok_iff [AddressCheck] {types : List AbiType} {values : List Value}
    {block : Bytes} :
    encode types values = .ok block ↔
      types.length = values.length ∧ types.any AbiType.isEmptyTuple = false ∧
        AbiType.block? types values = some block := by
  rw [encode, ← AbiType.block?]
  by_cases count : types.length = values.length
  · cases empty : types.any AbiType.isEmptyTuple with
    | true => simp [count, Outcome.condition]
    | false =>
        cases AbiType.block? types values with
        | some found => simp [count]
        | none =>
            simp only [count, ne_eq, not_true_eq_false, if_false, Bool.false_eq_true]
            split
            · simp
            · split <;> simp
  · simp [count, Outcome.fault]

/-- The block of some values is decoded to their normal forms. -/
theorem decode_block? [AddressCheck] {types : List AbiType} {values : List Value} {block : Bytes}
    (constructed : ∀ type ∈ types, type.Constructed)
    (nonempty : ∀ type ∈ types, type.isEmptyTuple = false)
    (encodedBlock : AbiType.block? types values = some block) :
    decode types block = .ok (AbiType.normalForms types values) := by
  have wellFormed := AbiType.allWellFormed_of_constructed constructed nonempty
  have readBack : AbiType.AllReadBack types := fun type member =>
    AbiType.isReadAs_payload (AbiType.allWellFormed_iff.mp wellFormed type member).2
  have noneEmpty : types.any AbiType.isEmptyTuple = false := by simpa using nonempty
  rcases AbiType.decodeBlockAt_block? wellFormed readBack encodedBlock with
    ⟨raws, reads, _, normalised⟩
  have decoded : AbiType.decodeBlock types block = .ok raws :=
    reads block 0 (AbiType.StandsAt.start block)
  rw [decode, noneEmpty, decoded, ← normalised]
  rfl

theorem decodeSingle_encodeSingle [AddressCheck] {type : AbiType} {value : Value} {block : Bytes}
    (constructed : type.Constructed) (encoded : encodeSingle type value = .ok block) :
    decodeSingle type block = .ok (type.normalForm value) := by
  rcases encode_eq_ok_iff.mp encoded with ⟨_, nonempty, encodedBlock⟩
  have decoded : decode [type] block = .ok (AbiType.normalForms [type] [value]) :=
    decode_block? (by simpa using constructed) (by simpa using nonempty) encodedBlock
  rw [decodeSingle, decoded]
  rfl

/-- What was encoded is decoded to the normal forms of the values: integers, flags and texts are
unchanged, byte strings can no longer change and have their full size, addresses are texts with
capitals, arrays are lists and tuples are tuples at every depth. -/
theorem decode_encode [AddressCheck] {types : List AbiType} {values : List Value} {block : Bytes}
    (constructed : ∀ type ∈ types, type.Constructed)
    (nonempty : ∀ type ∈ types, type.isEmptyTuple = false)
    (encoded : encode types values = .ok block) :
    decode types block = .ok (AbiType.normalForms types values) := by
  rcases encode_eq_ok_iff.mp encoded with ⟨_, _, encodedBlock⟩
  exact decode_block? constructed nonempty encodedBlock

set_option maxRecDepth 4000 in
theorem decode_encode_nested :
    let record : AbiType := .tuple [.address, .fixedBytes 4, .array (.array .string)]
    let types : List AbiType := [record, .fixedArray (.int 8) 2]
    let account : Bytes := List.replicate 20 0xab
    let values : List Value :=
      [.list [.bytes account, .buffer [1, 2], .list [.tuple [.text "é", .text ""], .list []]],
        .tuple [.int (-1), .int 127]]
    (∀ type ∈ types, type.Constructed) ∧ (∀ type ∈ types, type.isEmptyTuple = false) ∧
      ∃ block, encode types values = .ok block ∧
        decode types block = .ok
          [.tuple [(Address.mk account).toValue, .bytes [1, 2, 0, 0],
              .list [.list [.text "é", .text ""], .list []]],
            .list [.int (-1), .int 127]] := by
  intro record types account values
  have texts : AbiType.Constructed (.array (.array .string)) :=
    .array (.array .string rfl : AbiType.Constructed (.array .string)) rfl
  have constructedRecord : record.Constructed := by
    have components : ∀ component ∈ [.address, .fixedBytes 4, .array (.array .string)],
        AbiType.Constructed component := by
      simp only [List.forall_mem_cons, List.not_mem_nil, false_implies, implies_true, and_true]
      exact ⟨.address, .fixedBytes (.int 4) rfl, texts⟩
    exact .tuple components rfl
  have constructedPair : AbiType.Constructed (.fixedArray (.int 8) 2) := by
    refine .ofLength (.int (.int 8) rfl) rfl (by decide) ?_
    calc 2 < 10 ^ 1 := by decide
      _ ≤ 10 ^ Text.digitLimit := Nat.pow_le_pow_right (by decide) (by decide)
  have constructed : ∀ type ∈ types, type.Constructed := by
    simp only [types, List.forall_mem_cons, List.not_mem_nil, false_implies, implies_true,
      and_true]
    exact ⟨constructedRecord, constructedPair⟩
  have nonempty : ∀ type ∈ types, type.isEmptyTuple = false := by decide
  have encoded : encode types values = .ok _ := rfl
  exact ⟨constructed, nonempty, _, encoded, decode_encode constructed nonempty encoded⟩

end ContractClient
