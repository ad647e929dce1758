import ContractClient.Proofs.Abi.Nesting

/-!
# Corrupted encodings

What a word, a text or padding is refused for is the code of the fault with which decoding ends, at
whatever depth of an encoding it stands (`decode_corrupted`). A flag is an exception to what its
code says: the last byte of its word is looked at before the other ones, so that a word that is no
flag counts as bad padding if it ends like a flag.
-/

namespace ContractClient

namespace Bytes

/-- A byte string in which the bytes from a position on are replaced. -/
def splice (position : Nat) (replacement octets : Bytes) : Bytes :=
  octets.take position ++ (replacement ++ octets.drop (position + replacement.length))

variable {position : Nat} {replacement octets front back : Bytes}

theorem length_splice (within : position + replacement.length ≤ octets.length) :
    (splice position replacement octets).length = octets.length := by
  simp only [splice, List.length_append, List.length_take, List.length_drop]
  omega

theorem splice_all (sameLength : replacement.length = octets.length) :
    splice 0 replacement octets = replacement := by
  simp [splice, sameLength]

/-- What is replaced in a part is replaced in the whole. -/
theorem splice_append (within : position + replacement.length ≤ octets.length) :
    splice (front.length + position) replacement (front ++ (octets ++ back)) =
      front ++ (splice position replacement octets ++ back) := by
  have start : position ≤ octets.length := by omega
  rw [splice, splice, Nat.add_assoc, List.take_length_add_append, List.drop_length_add_append,
    List.take_append_of_le_length start, List.drop_append_of_le_length within]
  simp only [List.append_assoc]

end Bytes

namespace AbiType

variable {type leaf : AbiType} {found : Value} {content inner : Bytes} {position : Nat}

theorem IsInside.ne_of_splice {index : Nat} {replacement : Bytes}
    (inside : IsInside leaf inner type content position)
    (within : index + replacement.length ≤ inner.length)
    (changes : Bytes.splice (position + index) replacement content ≠ content) :
    Bytes.splice index replacement inner ≠ inner := by
  rcases inside with ⟨left, right, rfl, rfl, _⟩
  intro same
  rw [Bytes.splice_append within, same] at changes
  exact changes rfl

section Values

variable {number : Nat} {octets : Bytes} {text : String}

theorem isRefusedAs_bool (above : 1 < number) (fits : number < 2 ^ 256) :
    IsRefusedAs .bool (Bytes.word number)
      (if 1 < number % 256 then .invalidValue else .invalidPadding) := by
  intro data position stands
  rw [decodeAt, stands.readNat fits, Outcome.ok_bind, flagOfWord]
  by_cases low : 1 < number % 256
  · rw [if_pos low, if_pos low]
  · rw [if_neg low, if_neg low, if_pos above]

theorem isRefusedAs_string (fits : octets.length < 2 ^ 256) (noText : Bytes.toText? octets = none) :
    IsRefusedAs .string (Bytes.word octets.length ++ Bytes.padRight octets) .invalidText := by
  intro data position stands
  rw [decodeAt, stands.readContent fits, Outcome.ok_bind, textOfContent, noText]

theorem splice_bool (payload : payload? .bool found = some inner) (number : Nat) :
    0 + (Bytes.word number).length ≤ inner.length ∧
      Bytes.splice 0 (Bytes.word number) inner = Bytes.word number := by
  rcases payload?_bool_eq_some_iff.mp payload with ⟨flag, _, rfl⟩
  constructor
  · simp
  · apply Bytes.splice_all
    rw [Bytes.length_word, Bytes.length_word]

theorem splice_string (payload : payload? .string (.text text) = some inner)
    (sameLength : octets.length = (Bytes.ofText text).length) :
    octets.length < 2 ^ 256 ∧ Bytes.wordLength + octets.length ≤ inner.length ∧
      Bytes.splice Bytes.wordLength octets inner =
        Bytes.word octets.length ++ Bytes.padRight octets := by
  rcases payload?_string_eq_some_iff.mp payload with ⟨same, read, fits, rfl⟩
  cases read
  rw [← sameLength] at fits
  refine ⟨fits, ?_, ?_⟩
  · rw [List.length_append, Bytes.length_word, Bytes.length_padRight]
    omega
  · have within : 0 + octets.length ≤ (Bytes.ofText text).length := by omega
    have place : Bytes.wordLength = (Bytes.word (Bytes.ofText text).length).length + 0 := by simp
    rw [Bytes.padRight, place, Bytes.splice_append within, Bytes.splice_all sameLength,
      Bytes.padRight, sameLength]

end Values

/-- Where the padding in the payload of a value starts, and its length. -/
def padding : AbiType → Value → Nat × Nat
  | uint bits, _ => (0, Bytes.wordLength - bits / 8)
  | int bits, _ => (0, Bytes.wordLength - bits / 8)
  | address, _ => (0, Bytes.wordLength - Address.length)
  | fixedBytes size, _ => (size, Bytes.wordLength - size)
  | bytes, value =>
    let length := (value.octets?.getD []).length
    (Bytes.wordLength + length, Bytes.wordPadding length)
  | string, .text text =>
    let length := (Bytes.ofText text).length
    (Bytes.wordLength + length, Bytes.wordPadding length)
  | _, _ => (0, 0)

/-- A payload has padding, and whatever else stands in its place is refused. -/
def HasPadding (type : AbiType) (inner : Bytes) (start length : Nat) : Prop :=
  ∃ left padding right, inner = left ++ (padding ++ right) ∧ left.length = start ∧
    padding.length = length ∧ ∀ other, other.length = length → other ≠ padding →
      IsRefusedAs type (left ++ (other ++ right)) .invalidPadding

section Padding

variable {bits size : Nat} {octets other data : Bytes}

theorem hasPadding_zero (type : AbiType) (inner : Bytes) : HasPadding type inner 0 0 :=
  ⟨[], [], inner, rfl, rfl, rfl, fun _ empty differs =>
    absurd (List.length_eq_zero_iff.mp empty) differs⟩

theorem not_all_zero (sameLength : other.length = size) (differs : other ≠ Bytes.zeros size) :
    other.all (· == 0) ≠ true := by
  intro zero
  apply differs
  rw [eq_zeros_of_all zero, sameLength]

theorem readNat_of_word (stands : StandsAt content data position)
    (width : content.length = Bytes.wordLength) :
    readNat data position = .ok (Bytes.toNat content) := by
  rw [readNat_eq_ok_iff, Bytes.word_toNat width]
  exact ⟨Bytes.toNat_lt_of_word width, stands⟩

/-- The two ends of a range of words, as numbers with a sign: the bytes above a width are all zero
or all full, and they are known by the lower bytes. -/
theorem isSigned_iff {high low count half : Nat} (below : high < count) (small : low < 2 * half) :
    (high * (2 * half) + low < half ∨ count * (2 * half) - half ≤ high * (2 * half) + low) ↔
      (high = 0 ∧ low < half) ∨ (high + 1 = count ∧ half ≤ low) := by
  rcases Nat.eq_zero_or_pos high with rfl | positive
  · rcases Nat.eq_or_lt_of_le below with last | inside
    · subst last
      omega
    · have twice : 2 * (2 * half) ≤ count * (2 * half) := Nat.mul_le_mul_right _ inside
      omega
  · have above : 1 * (2 * half) ≤ high * (2 * half) := Nat.mul_le_mul_right _ positive
    rcases Nat.eq_or_lt_of_le below with last | inside
    · have split : (high + 1) * (2 * half) = high * (2 * half) + 2 * half := Nat.succ_mul _ _
      rw [← last, split]
      omega
    · have under : (high + 2) * (2 * half) ≤ count * (2 * half) := Nat.mul_le_mul_right _ inside
      rw [Nat.add_mul] at under
      omega

theorem eq_zero_of_mul_add_lt {high low count : Nat} (below : high * count + low < count) :
    high = 0 := by
  by_contra nonzero
  have above : count ≤ high * count := Nat.le_mul_of_pos_left count (Nat.pos_of_ne_zero nonzero)
  omega

theorem pow_of_isWidth (width : IsWidth bits) : 256 ^ (bits / 8) = 2 ^ bits := by
  have split : bits = 8 * (bits / 8) := by
    have := width.1
    omega
  have base : 256 = 2 ^ 8 := rfl
  rw [base, ← Nat.pow_mul, ← split]

/-- The word of an integer, split above the width of its type, and what is read when other bytes
stand above the width. -/
theorem exists_split_word (width : IsWidth bits) (number : Int) :
    ∃ high low, integerWord number = high ++ low ∧ high.length = Bytes.wordLength - bits / 8 ∧
      Bytes.toNat low < 2 ^ bits ∧
      Bytes.toNat high * 2 ^ bits + Bytes.toNat low = (number % 2 ^ 256).toNat ∧
      ∀ other data position, other.length = Bytes.wordLength - bits / 8 →
        StandsAt (other ++ low) data position →
          readNat data position = .ok (Bytes.toNat other * 2 ^ bits + Bytes.toNat low) := by
  have within : bits / 8 ≤ Bytes.wordLength := by
    have limit := width.2.2
    simp only [Bytes.wordLength]
    omega
  have length : (integerWord number).length = Bytes.wordLength := Bytes.length_word _
  have split := List.take_append_drop (Bytes.wordLength - bits / 8) (integerWord number)
  generalize highEq : (integerWord number).take (Bytes.wordLength - bits / 8) = high at split
  generalize lowEq : (integerWord number).drop (Bytes.wordLength - bits / 8) = low at split
  have highLength : high.length = Bytes.wordLength - bits / 8 := by
    rw [← highEq, List.length_take, length]
    omega
  have lowLength : low.length = bits / 8 := by
    rw [← lowEq, List.length_drop, length]
    omega
  have joined (other : Bytes) :
      Bytes.toNat (other ++ low) = Bytes.toNat other * 2 ^ bits + Bytes.toNat low := by
    rw [Bytes.toNat_append, lowLength, pow_of_isWidth width]
  refine ⟨high, low, split.symm, highLength, ?_, ?_, ?_⟩
  · have small := Bytes.toNat_lt low
    rwa [lowLength, pow_of_isWidth width] at small
  · have fits : (number % 2 ^ 256).toNat < 2 ^ 256 := by omega
    rw [← joined, split, integerWord, Bytes.toNat_word fits]
  · intro other data position sameLength stands
    rw [← joined]
    apply readNat_of_word stands
    rw [List.length_append, sameLength, lowLength]
    omega

theorem hasPadding_uint (width : IsWidth bits)
    (payload : payload? (.uint bits) found = some inner) :
    HasPadding (.uint bits) inner 0 (Bytes.wordLength - bits / 8) := by
  rcases payload?_uint_eq_some_iff.mp payload with ⟨number, _, fits, rfl⟩
  rcases exists_split_word width number with ⟨high, low, split, highLength, _, whole, reads⟩
  refine ⟨[], high, low, split, rfl, highLength, ?_⟩
  intro other sameLength differs data position stands
  simp only [fitsUnsigned, Bool.and_eq_true, decide_eq_true_eq] at fits
  have natural : (2 : Int) ^ bits = ((2 ^ bits : Nat) : Int) := by simp
  rw [natural] at fits
  have inRange : Bytes.toNat high * 2 ^ bits + Bytes.toNat low < 2 ^ bits := by omega
  have outside : ¬Bytes.toNat other * 2 ^ bits + Bytes.toNat low < 2 ^ bits := by
    intro otherInRange
    apply differs
    apply Bytes.toNat_inj (sameLength.trans highLength.symm)
    rw [eq_zero_of_mul_add_lt otherInRange, eq_zero_of_mul_add_lt inRange]
  rw [decodeAt, reads other data position sameLength stands, Outcome.ok_bind, unsignedOfWord,
    if_neg outside]

theorem hasPadding_int (width : IsWidth bits)
    (payload : payload? (.int bits) found = some inner) :
    HasPadding (.int bits) inner 0 (Bytes.wordLength - bits / 8) := by
  rcases payload?_int_eq_some_iff.mp payload with ⟨number, _, fits, rfl⟩
  rcases exists_split_word width number with ⟨high, low, split, highLength, small, whole, reads⟩
  refine ⟨[], high, low, split, rfl, highLength, ?_⟩
  intro other sameLength differs data position stands
  have double : 2 ^ bits = 2 * 2 ^ (bits - 1) := by
    rw [← Nat.pow_succ', Nat.succ_eq_add_one, Nat.sub_add_cancel]
    have := width.2.1
    omega
  have total : 256 ^ (Bytes.wordLength - bits / 8) * (2 * 2 ^ (bits - 1)) = 2 ^ 256 := by
    have within : bits / 8 ≤ Bytes.wordLength := by
      have limit := width.2.2
      simp only [Bytes.wordLength]
      omega
    rw [← double, ← pow_of_isWidth width, ← Nat.pow_add, Nat.sub_add_cancel within]
    rfl
  have highRange := Bytes.toNat_lt high
  have otherRange := Bytes.toNat_lt other
  rw [highLength] at highRange
  rw [sameLength] at otherRange
  rw [double] at small whole
  -- Which bytes stand above a width is known by the bytes below it.
  have signed := isSigned_iff highRange small
  have otherSigned := isSigned_iff otherRange small
  rw [total] at signed otherSigned
  simp only [fitsSigned, Bool.and_eq_true, decide_eq_true_eq] at fits
  have natural : (2 : Int) ^ (bits - 1) = ((2 ^ (bits - 1) : Nat) : Int) := by simp
  have widthLimit : 2 ^ (bits - 1) ≤ 2 ^ 255 :=
    Nat.pow_le_pow_right (by decide) (by have := width.2.2; omega)
  rw [natural] at fits
  rw [decodeAt, reads other data position sameLength stands, Outcome.ok_bind, signedOfWord, double]
  generalize 2 ^ (bits - 1) = half at *
  have inRange := signed.mp (by omega)
  have outside : ¬(Bytes.toNat other * (2 * half) + Bytes.toNat low < half ∨
      2 ^ 256 - half ≤ Bytes.toNat other * (2 * half) + Bytes.toNat low) := by
    intro otherInRange
    apply differs
    apply Bytes.toNat_inj (sameLength.trans highLength.symm)
    have otherBytes := otherSigned.mp otherInRange
    omega
  rw [not_or] at outside
  rw [if_neg outside.1, if_neg outside.2]

theorem hasPadding_address (payload : payload? .address found = some inner) :
    HasPadding .address inner 0 (Bytes.wordLength - Address.length) := by
  rcases payload?_address_eq_some_iff.mp payload with ⟨address, read, rfl⟩
  refine ⟨[], Bytes.zeros (Bytes.wordLength - Address.length), address.octets, rfl, rfl,
    Bytes.length_zeros _, ?_⟩
  intro other sameLength differs data position stands
  have word := stands.readBytes
  have width : Bytes.wordLength - Address.length + Address.length = Bytes.wordLength := rfl
  rw [List.nil_append, List.length_append, sameLength, length_of_acceptedAddress? read, width]
    at word
  rw [decodeAt, word, Outcome.ok_bind, addressOfWord, List.take_left' sameLength,
    if_neg (not_all_zero sameLength differs)]

theorem hasPadding_fixedBytes (limit : size ≤ Bytes.wordLength)
    (payload : payload? (.fixedBytes size) found = some inner) :
    HasPadding (.fixedBytes size) inner size (Bytes.wordLength - size) := by
  rcases payload?_fixedBytes_eq_some_iff.mp payload with ⟨octets, _, fits, rfl⟩
  have width : (octets ++ Bytes.zeros (size - octets.length)).length = size := by
    rw [List.length_append, Bytes.length_zeros]
    omega
  refine ⟨_, Bytes.zeros (Bytes.wordLength - size), [], ?_, width, Bytes.length_zeros _, ?_⟩
  · rw [List.append_nil]
    exact Bytes.wordOf_eq_append fits limit
  intro other sameLength differs data position stands
  rw [List.append_nil] at stands
  have word := stands.readBytes
  rw [List.length_append, width, sameLength, Nat.add_sub_of_le limit] at word
  rw [decodeAt, word, Outcome.ok_bind, fixedBytesOfWord, List.drop_left' width,
    if_neg (not_all_zero sameLength differs)]

theorem readContent_of_padding (fits : octets.length < 2 ^ 256)
    (sameLength : other.length = Bytes.wordPadding octets.length)
    (differs : other ≠ Bytes.zeros (Bytes.wordPadding octets.length))
    (stands : StandsAt (Bytes.word octets.length ++ (octets ++ other)) data position) :
    readContent data position = .error .invalidPadding := by
  have padded := stands.right.readBytes
  rw [Bytes.length_word, List.length_append, sameLength] at padded
  rw [readContent, stands.left.readNat fits, Outcome.ok_bind, padded, Outcome.ok_bind,
    List.drop_left, if_neg (not_all_zero sameLength differs)]

theorem hasPadding_content (decode : Bytes → Decoded Value) (fits : octets.length < 2 ^ 256)
    (reads : ∀ data position,
      decodeAt data type position = (do decode (← readContent data position))) :
    HasPadding type (Bytes.word octets.length ++ Bytes.padRight octets)
      (Bytes.wordLength + octets.length) (Bytes.wordPadding octets.length) := by
  refine ⟨Bytes.word octets.length ++ octets, Bytes.zeros (Bytes.wordPadding octets.length), [], ?_,
    ?_, Bytes.length_zeros _, ?_⟩
  · rw [List.append_nil, List.append_assoc, Bytes.padRight]
  · rw [List.length_append, Bytes.length_word]
  intro other sameLength differs data position stands
  rw [List.append_nil, List.append_assoc] at stands
  rw [reads, readContent_of_padding fits sameLength differs stands]
  rfl

/-- Every payload has its padding where the type and the value say. -/
theorem hasPadding_payload (wellFormed : type.WellFormed)
    (payload : payload? type found = some inner) :
    HasPadding type inner (padding type found).1 (padding type found).2 := by
  cases type with
  | uint bits => exact hasPadding_uint wellFormed payload
  | int bits => exact hasPadding_int wellFormed payload
  | address => exact hasPadding_address payload
  | fixedBytes size => exact hasPadding_fixedBytes wellFormed.2 payload
  | bytes =>
      rcases payload?_bytes_eq_some_iff.mp payload with ⟨octets, read, fits, rfl⟩
      simp only [padding, read, Option.getD_some]
      exact hasPadding_content (fun octets => .ok (.bytes octets)) fits fun _ _ => rfl
  | string =>
      rcases payload?_string_eq_some_iff.mp payload with ⟨text, rfl, fits, rfl⟩
      exact hasPadding_content textOfContent fits fun _ _ => rfl
  | bool | fixedArray | array | tuple => exact hasPadding_zero _ _

theorem isRefusedAs_padding {start length index : Nat} {replacement : Bytes}
    (hasPadding : HasPadding type inner start length) (above : start ≤ index)
    (below : index + replacement.length ≤ start + length) :
    index + replacement.length ≤ inner.length ∧
      (Bytes.splice index replacement inner ≠ inner →
        IsRefusedAs type (Bytes.splice index replacement inner) .invalidPadding) := by
  rcases hasPadding with ⟨left, padding, right, rfl, rfl, rfl, refuses⟩
  rcases Nat.exists_eq_add_of_le above with ⟨offset, rfl⟩
  have within : offset + replacement.length ≤ padding.length := by omega
  constructor
  · simp only [List.length_append]
    omega
  · intro changes
    rw [Bytes.splice_append within] at changes ⊢
    apply refuses _ (Bytes.length_splice within)
    intro same
    rw [same] at changes
    exact changes rfl

end Padding

end AbiType

section Blocks

open AbiType

variable {types : List AbiType} {leaf : AbiType} {inner block replacement : Bytes}
  {position index : Nat} {issue : DecodeIssue}

/-- What is refused in the place of a payload in an encoding is what is wrong with the data. -/
theorem decodingFails_of_isInside (nonempty : ∀ type ∈ types, type.isEmptyTuple = false)
    (inside : IsInside leaf inner (.tuple types) block position)
    (within : index + replacement.length ≤ inner.length)
    (refused : IsRefusedAs leaf (Bytes.splice index replacement inner) issue) :
    DecodingFails types (Bytes.splice (position + index) replacement block) issue.code := by
  rcases inside with ⟨left, right, rfl, rfl, refuses⟩
  apply decodingFails_of_decodeBlock nonempty
  have whole := refuses _ issue (Bytes.length_splice within) refused _ 0 (StandsAt.start _)
  rw [decodeAt_tuple] at whole
  rw [Bytes.splice_append within]
  change decodeBlockAt (left ++ (Bytes.splice index replacement inner ++ right)) types 0 = _
  cases ends : decodeBlockAt (left ++ (Bytes.splice index replacement inner ++ right)) types 0 with
  | error other =>
      rw [ends] at whole
      cases whole
      rfl
  | ok raws =>
      rw [ends] at whole
      cases whole

end Blocks

/-- Decoding returns values or ends with a fault that has one of three codes. In an encoding, at any
depth, a word in the place of a flag is refused as a value if its last byte is not that of a flag,
and for its padding otherwise; bytes that are no text are refused as a value; and any change to
padding is refused for the padding. -/
theorem decode_corrupted {types : List AbiType} (constructed : ∀ type ∈ types, type.Constructed)
    (nonempty : ∀ type ∈ types, type.isEmptyTuple = false) :
    (∀ data, (∃ values, decode types data = .ok values) ∨
      ∃ code ∈ ["OUT_OF_BOUNDS", "INVALID_PADDING", "INVALID_VALUE"],
        DecodingFails types data code) ∧
    ∀ values block, encode types values = .ok block →
      (∀ flag position, AbiType.Holds .bool flag (.tuple types) (.list values) position →
        ∀ number, 1 < number → number < 2 ^ 256 →
          DecodingFails types (Bytes.splice position (Bytes.word number) block)
            (if 1 < number % 256 then "INVALID_VALUE" else "INVALID_PADDING")) ∧
      (∀ text position, AbiType.Holds .string (.text text) (.tuple types) (.list values) position →
        ∀ content, content.length = (Bytes.ofText text).length → Bytes.toText? content = none →
          DecodingFails types (Bytes.splice (position + Bytes.wordLength) content block)
            "INVALID_VALUE") ∧
      (∀ leaf found position, AbiType.Holds leaf found (.tuple types) (.list values) position →
        ∀ index replacement, (AbiType.padding leaf found).1 ≤ index →
          index + replacement.length ≤
            (AbiType.padding leaf found).1 + (AbiType.padding leaf found).2 →
          Bytes.splice (position + index) replacement block ≠ block →
          DecodingFails types (Bytes.splice (position + index) replacement block)
            "INVALID_PADDING") := by
  have wellFormed : (AbiType.tuple types).WellFormed :=
    AbiType.allWellFormed_of_constructed constructed nonempty
  constructor
  · intro data
    cases decoded : AbiType.decodeBlock types data with
    | ok raws => exact .inl ⟨_, decode_of_decodeBlock_eq_ok nonempty decoded⟩
    | error issue =>
        exact .inr ⟨issue.code, by cases issue <;> simp [DecodeIssue.code],
          decodingFails_of_decodeBlock nonempty decoded⟩
  intro values block encoded
  have payload : AbiType.payload? (.tuple types) (.list values) = some block :=
    AbiType.payload?_tuple_eq_some_iff.mpr ⟨values, rfl, (encode_eq_ok_iff.mp encoded).2.2⟩
  refine ⟨?_, ?_, ?_⟩
  · intro flag position holds number above fits
    rcases AbiType.isInside_of_holds wellFormed holds payload with ⟨inner, flagPayload, inside⟩
    have refused := AbiType.isRefusedAs_bool above fits
    rcases AbiType.splice_bool flagPayload number with ⟨within, replaced⟩
    rw [← replaced] at refused
    have fails := decodingFails_of_isInside nonempty inside within refused
    rwa [apply_ite DecodeIssue.code, Nat.add_zero] at fails
  · intro text position holds content sameLength noText
    rcases AbiType.isInside_of_holds wellFormed holds payload with ⟨inner, textPayload, inside⟩
    rcases AbiType.splice_string textPayload sameLength with ⟨fits, within, replaced⟩
    have refused := AbiType.isRefusedAs_string fits noText
    rw [← replaced] at refused
    exact decodingFails_of_isInside nonempty inside within refused
  · intro leaf found position holds index replacement above below changes
    rcases AbiType.isInside_of_holds wellFormed holds payload with ⟨inner, leafPayload, inside⟩
    have hasPadding :=
      AbiType.hasPadding_payload (AbiType.wellFormed_of_holds wellFormed holds) leafPayload
    rcases AbiType.isRefusedAs_padding hasPadding above below with ⟨within, refuses⟩
    have refused := refuses (inside.ne_of_splice within changes)
    exact decodingFails_of_isInside nonempty inside within refused

/-- A flag and a text of two bytes in a tuple in an array. -/
theorem decode_corrupted_nested :
    let entry : AbiType := .tuple [.bool, .string]
    let types : List AbiType := [.array entry, .address]
    let values : List Value := [.list [.tuple [.bool true, .text "é"]], .bytes (Bytes.zeros 20)]
    let block : Bytes := [Bytes.word 64, Bytes.word 0, Bytes.word 1, Bytes.word 32, Bytes.word 1,
      Bytes.word 64, Bytes.word 2, Bytes.padRight [0xc3, 0xa9]].flatten
    (∀ type ∈ types, type.Constructed) ∧ (∀ type ∈ types, type.isEmptyTuple = false) ∧
      encode types values = .ok block ∧
      AbiType.Holds .bool (.bool true) (.tuple types) (.list values) 128 ∧
      DecodingFails types (Bytes.splice 128 (Bytes.word 2) block) "INVALID_VALUE" ∧
      DecodingFails types (Bytes.splice 128 (Bytes.word 256) block) "INVALID_PADDING" ∧
      AbiType.Holds .string (.text "é") (.tuple types) (.list values) 192 ∧
      DecodingFails types (Bytes.splice 224 [0xc3, 0x28] block) "INVALID_VALUE" ∧
      DecodingFails types (Bytes.splice 255 [1] block) "INVALID_PADDING" := by
  intro entry types values block
  have constructedEntry : entry.Constructed := by
    have components : ∀ component ∈ [.bool, .string], AbiType.Constructed component := by
      simp only [List.forall_mem_cons, List.not_mem_nil, false_implies, implies_true, and_true]
      exact ⟨.bool, .string⟩
    exact .tuple components rfl
  have constructed : ∀ type ∈ types, type.Constructed := by
    simp only [types, List.forall_mem_cons, List.not_mem_nil, false_implies, implies_true,
      and_true]
    exact ⟨.array constructedEntry rfl, .address⟩
  have nonempty : ∀ type ∈ types, type.isEmptyTuple = false := by decide
  have encodedBlock : AbiType.block? types values = some block := by decide +kernel
  have encoded : encode types values = .ok block := encode_eq_ok_iff.mpr ⟨rfl, rfl, encodedBlock⟩
  -- What the tuple holds stands behind the heads, the length of the array and one offset.
  have within {leaf : AbiType} {found : Value} {position : Nat}
      (inner : AbiType.Holds leaf found entry (.tuple [.bool true, .text "é"]) position) :
      AbiType.Holds leaf found (.tuple types) (.list values) (64 + (32 + (32 + position))) :=
    @AbiType.Holds.tuple leaf found [] [.address] (.array entry) _ _ [] [_] _ rfl rfl
      (@AbiType.Holds.array leaf found entry _ _ [] [] position rfl inner)
  have flag : AbiType.Holds .bool (.bool true) (.tuple types) (.list values) 128 :=
    within (@AbiType.Holds.tuple _ _ [] [.string] .bool _ _ [] [_] 0 rfl rfl .self)
  have text : AbiType.Holds .string (.text "é") (.tuple types) (.list values) 192 :=
    within (@AbiType.Holds.tuple _ _ [.bool] [] .string _ _ [_] [] 0 rfl rfl .self)
  rcases (decode_corrupted constructed nonempty).2 values block encoded with
    ⟨flags, texts, paddings⟩
  exact ⟨constructed, nonempty, encoded, flag, flags _ 128 flag 2 (by decide) (by decide),
    flags _ 128 flag 256 (by decide) (by decide), text,
    texts _ 192 text [0xc3, 0x28] rfl (by decide),
    paddings _ _ 192 text 63 [1] (by decide) (by decide) (by decide +kernel)⟩

set_option maxRecDepth 4000 in
/-- A word that is no flag is not always refused as a value. -/
theorem not_invalidValue_flag :
    encode [.bool] [.bool true] = .ok (Bytes.word 1) ∧
      AbiType.Holds .bool (.bool true) (.tuple [.bool]) (.list [.bool true]) 0 ∧
      1 < 256 ∧ 256 < 2 ^ 256 ∧
      ¬DecodingFails [.bool] (Bytes.splice 0 (Bytes.word 256) (Bytes.word 1)) "INVALID_VALUE" := by
  refine ⟨rfl, @AbiType.Holds.tuple _ _ [] [] .bool _ _ [] [] 0 rfl rfl .self, by decide,
    by decide, ?_⟩
  rintro ⟨fault, failed, _, code⟩
  have ends : decode [.bool] (Bytes.splice 0 (Bytes.word 256) (Bytes.word 1)) =
      Outcome.fault (DecodeIssue.invalidPadding.fault [.bool]) := by rfl
  rw [ends] at failed
  cases failed
  rw [DecodeIssue.code_fault] at code
  simp [DecodeIssue.code] at code

end ContractClient
