import ContractClient.Proofs.Abi.RoundTrip
import ContractClient.Proofs.Abi.Size

/-!
# What can be encoded

Encoding is to tell the values that suit their types from all others (`AbiType.TellsFit`): the
former have an encoding, the latter are refused by a fault of kind `encode`. To suit its type a
value has to fit it, and of all sequences only lists and tuples do (`AbiType.Suits`).

Encoding accepts only what fits, with sequences of any kind, and whatever fits and has a block that
a word can count. It tells the values apart unless another sequence stands for a list or a tuple,
they are too long for words, one of their texts has no encoding, or a refused value cannot be shown
(`encode_tells_fit_iff`).
-/

namespace ContractClient

namespace AbiType

variable {type : AbiType} {types : List AbiType} {value : Value}
  {values items : List Value}

theorem anyUnencodable_eq_false_iff :
    Value.anyUnencodable items = false ↔ ∀ entry ∈ items, entry.isUnencodable = false := by
  induction items with
  | nil => simp [Value.anyUnencodable]
  | cons entry items ih => simp [Value.anyUnencodable, ih]

theorem isUnencodable_of_items? (found : value.items? = some items) :
    value.isUnencodable = Value.anyUnencodable items := by
  cases value with
  | list | tuple | sequence => simp_all [Value.isUnencodable]
  | _ => simp [Value.items?] at found

theorem isUnencodable_of_octets? {octets : Bytes} (found : value.octets? = some octets) :
    value.isUnencodable = false := by
  cases value with
  | bytes | buffer => rfl
  | _ => simp [Value.octets?] at found

variable [AddressCheck]

theorem fitsAll_hasEncoding_iff_of_forall
    (each : ∀ type ∈ types, ∀ value, Fits Value.IsText type value →
      (Fits Value.HasEncoding type value ↔ value.isUnencodable = false))
    (fits : FitsAll Value.IsText types values) :
    FitsAll Value.HasEncoding types values ↔ Value.anyUnencodable values = false := by
  induction types generalizing values with
  | nil => cases values <;> simp_all [FitsAll, Value.anyUnencodable]
  | cons type types ih =>
      rw [List.forall_mem_cons] at each
      rcases fitsAll_cons_iff.mp fits with ⟨value, rest, rfl, fitsFirst, fitsRest⟩
      rw [FitsAll, Value.anyUnencodable, Bool.or_eq_false_iff, each.1 value fitsFirst,
        ih each.2 fitsRest]

/-- Of the values that pass the checks, those fit that hold no text without an encoding. -/
theorem fits_hasEncoding_iff (type : AbiType) (value : Value)
    (fits : Fits Value.IsText type value) :
    Fits Value.HasEncoding type value ↔ value.isUnencodable = false := by
  induction type generalizing value with
  | uint bits | int bits =>
      rcases fits with ⟨number, rfl, bounds⟩
      simp [Fits, bounds, Value.isUnencodable]
  | address =>
      have encodable : value.isUnencodable = false := by
        rcases fits with ⟨octets, found, _⟩ | ⟨text, rfl, _, _⟩
        · exact isUnencodable_of_octets? found
        · rfl
      exact iff_of_true fits encodable
  | bool =>
      rcases fits with ⟨flag, rfl⟩
      simp [Fits, Value.isUnencodable]
  | fixedBytes size =>
      rcases fits with ⟨octets, found, short⟩
      exact iff_of_true ⟨octets, found, short⟩ (isUnencodable_of_octets? found)
  | bytes =>
      rcases fits with ⟨octets, found⟩
      exact iff_of_true ⟨octets, found⟩ (isUnencodable_of_octets? found)
  | string =>
      rcases fits with ⟨text, rfl⟩ | ⟨codePoints, rfl⟩
      · simp [Fits, Value.HasEncoding, Value.isUnencodable]
      · simp [Fits, Value.HasEncoding, Value.isUnencodable]
  | fixedArray item length ih =>
      rcases fits with ⟨items, found, count, each⟩
      rw [isUnencodable_of_items? found, anyUnencodable_eq_false_iff, Fits]
      simp only [found, Option.some.injEq, exists_eq_left', count, true_and]
      exact forall₂_congr fun entry member => ih entry (each entry member)
  | array item ih =>
      rcases fits with ⟨items, found, each⟩
      rw [isUnencodable_of_items? found, anyUnencodable_eq_false_iff, Fits]
      simp only [found, Option.some.injEq, exists_eq_left']
      exact forall₂_congr fun entry member => ih entry (each entry member)
  | tuple components ih =>
      rcases fits with ⟨items, found, each⟩
      rw [isUnencodable_of_items? found, Fits]
      simp only [found, Option.some.injEq, exists_eq_left']
      exact fitsAll_hasEncoding_iff_of_forall ih each

theorem fitsAll_hasEncoding_iff (fits : FitsAll Value.IsText types values) :
    FitsAll Value.HasEncoding types values ↔ Value.anyUnencodable values = false :=
  fitsAll_hasEncoding_iff_of_forall (fun type _ => fits_hasEncoding_iff type) fits

theorem firstRefused?_eq_none_iff_of_forall (count : types.length = values.length)
    (each : ∀ type ∈ types, ∀ value, refused? type value = none ↔ accepts type value = true) :
    firstRefused? types values = none ↔ acceptsAll types values = true := by
  induction types generalizing values with
  | nil =>
      rw [List.length_nil, eq_comm, List.length_eq_zero_iff] at count
      simp [count, firstRefused?, acceptsAll]
  | cons type types ih =>
      rw [List.forall_mem_cons] at each
      cases values with
      | nil => simp at count
      | cons value values =>
          have countRest : types.length = values.length := by simpa using count
          rw [firstRefused?, acceptsAll, Bool.and_eq_true, ← each.1 value, ← ih countRest each.2]
          cases refused? type value <;> simp

/-- A value is shown by a refusal exactly if it is refused. -/
theorem refused?_eq_none_iff (type : AbiType) (value : Value) :
    refused? type value = none ↔ accepts type value = true := by
  induction type generalizing value with
  | fixedArray item length ih =>
      rw [refused?, accepts]
      cases value.items? with
      | none => simp
      | some items =>
          have members : items.findSome? (refused? item) = none ↔
              items.all (accepts item) = true := by
            simp [List.findSome?_eq_none_iff, ih]
          simp only [Bool.and_eq_true, beq_iff_eq, ← members]
          cases items.findSome? (refused? item) <;> simp
  | array item ih =>
      rw [refused?, accepts]
      cases value.items? <;> simp [List.findSome?_eq_none_iff, ih]
  | tuple components ih =>
      rw [refused?, accepts]
      cases value.items? with
      | none => simp
      | some items =>
          by_cases count : components.length = items.length
          · simp [count, firstRefused?_eq_none_iff_of_forall count ih]
          · have refused : acceptsAll components items ≠ true :=
              fun accepted => count (length_of_fitsAll (acceptsAll_iff.mp accepted))
            simp [Ne.symm count, refused]
  | _ => simp [refused?]

theorem firstRefused?_eq_none_iff (count : types.length = values.length) :
    firstRefused? types values = none ↔ acceptsAll types values = true :=
  firstRefused?_eq_none_iff_of_forall count fun type _ => refused?_eq_none_iff type

/-- Values fit their types, and every sequence that stands for an array or a tuple is a list or a
tuple. -/
structure Suits (types : List AbiType) (values : List Value) : Prop where
  fits : FitsAll Value.HasEncoding types values
  plain : Value.AllPlain values

/-- Encoding tells whether the values suit their types: it has a result if they do, and refuses them
if not. -/
structure TellsFit (types : List AbiType) (values : List Value) : Prop where
  accepts : Suits types values → ∃ block, encode types values = .ok block
  refuses : ¬Suits types values →
    ∃ fault, encode types values = Outcome.fault fault ∧ fault.kind = .encode

theorem tellsFit_of_length_ne (count : types.length ≠ values.length) : TellsFit types values where
  accepts suits := absurd (length_of_fitsAll suits.fits) count
  refuses _ := by
    rw [encode, if_pos count]
    exact ⟨_, rfl, rfl⟩

section Outcomes

variable (count : types.length = values.length) (nonempty : types.any isEmptyTuple = false)

include count nonempty

/-- How encoding ends when there is no block. -/
theorem encode_of_block?_eq_none (failed : block? types values = none) :
    encode types values =
      if acceptsAll types values && Value.anyUnencodable values then
        Outcome.condition .unencodableText
      else if (firstRefused? types values).any (!·.isShowable) then Outcome.condition .badValue
      else Outcome.fault { Fault.encode "" (signature types) with message := none } := by
  rw [encode, ← block?, failed]
  simp [count, nonempty]

theorem encode_of_fitsAll (fits : FitsAll Value.HasEncoding types values) :
    (∃ block, encode types values = .ok block) ↔
      AllAddressable types values ∧ HasOffsets types values := by
  simp only [encode_eq_ok_iff, count, nonempty, true_and, exists_block_iff_fitsAll, fits]

theorem encode_of_unencodable (fits : FitsAll Value.IsText types values)
    (unencodable : ¬FitsAll Value.HasEncoding types values) :
    encode types values = Outcome.condition .unencodableText := by
  have failed : block? types values = none := by
    rw [Option.eq_none_iff_forall_ne_some]
    exact fun block encoded => unencodable (exists_block_iff_fitsAll.mp ⟨block, encoded⟩).1
  rw [fitsAll_hasEncoding_iff fits, Bool.not_eq_false] at unencodable
  rw [encode_of_block?_eq_none count nonempty failed, acceptsAll_iff.mpr fits, unencodable]
  rfl

theorem encode_of_refused (misfits : ¬FitsAll Value.IsText types values) :
    ∃ shown, firstRefused? types values = some shown ∧
      encode types values =
        if shown.isShowable then
          Outcome.fault { Fault.encode "" (signature types) with message := none }
        else Outcome.condition .badValue := by
  have failed : block? types values = none := by
    rw [Option.eq_none_iff_forall_ne_some]
    exact fun block encoded => misfits (fitsAll_isText_of_hasEncoding
      (exists_block_iff_fitsAll.mp ⟨block, encoded⟩).1)
  have refused : acceptsAll types values = false := by
    rwa [← acceptsAll_iff, Bool.not_eq_true] at misfits
  cases found : firstRefused? types values with
  | none =>
      rw [firstRefused?_eq_none_iff count, refused] at found
      cases found
  | some shown =>
      refine ⟨shown, rfl, ?_⟩
      rw [encode_of_block?_eq_none count nonempty failed, refused, found, Option.any_some]
      cases shown.isShowable <;> rfl

/-- What fits and has too long a block is refused like what does not fit. -/
theorem fault_of_not_addressable (fits : FitsAll Value.HasEncoding types values)
    (long : ¬(AllAddressable types values ∧ HasOffsets types values)) :
    ∃ fault, encode types values = Outcome.fault fault ∧ fault.kind = .encode := by
  have failed : block? types values = none := by
    rw [Option.eq_none_iff_forall_ne_some]
    exact fun block encoded => long (exists_block_iff_fitsAll.mp ⟨block, encoded⟩).2
  have texts := fitsAll_isText_of_hasEncoding fits
  have encodable := (fitsAll_hasEncoding_iff texts).mp fits
  have nothingShown := (firstRefused?_eq_none_iff count).mpr (acceptsAll_iff.mpr texts)
  rw [encode_of_block?_eq_none count nonempty failed, encodable, nothingShown, Bool.and_false]
  exact ⟨_, rfl, rfl⟩

/-- Of the values that fit, those are told apart that have no other sequences exactly if they have a
block. -/
theorem tellsFit_iff_of_fits (fits : FitsAll Value.HasEncoding types values) :
    TellsFit types values ↔
      (Value.AllPlain values ↔ AllAddressable types values ∧ HasOffsets types values) := by
  have encoded := encode_of_fitsAll count nonempty fits
  constructor
  · rintro ⟨accepts, refuses⟩
    constructor
    · intro plain
      exact encoded.mp (accepts ⟨fits, plain⟩)
    · intro addressable
      by_contra other
      rcases encoded.mpr addressable with ⟨block, result⟩
      rcases refuses fun suits => other suits.plain with ⟨fault, refused, _⟩
      rw [result] at refused
      cases refused
  · intro same
    constructor
    · intro suits
      exact encoded.mpr (same.mp suits.plain)
    · intro unsuited
      apply fault_of_not_addressable count nonempty fits
      exact fun addressable => unsuited ⟨fits, same.mpr addressable⟩

theorem not_tellsFit_of_unencodable (fits : FitsAll Value.IsText types values)
    (unencodable : ¬FitsAll Value.HasEncoding types values) : ¬TellsFit types values := by
  intro tells
  rcases tells.refuses fun suits => unencodable suits.fits with ⟨fault, refused, _⟩
  rw [encode_of_unencodable count nonempty fits unencodable] at refused
  cases refused

theorem tellsFit_iff_of_refused (misfits : ¬FitsAll Value.IsText types values) :
    ∃ shown, firstRefused? types values = some shown ∧
      (TellsFit types values ↔ shown.isShowable = true) := by
  have unsuited : ¬Suits types values :=
    fun suits => misfits (fitsAll_isText_of_hasEncoding suits.fits)
  rcases encode_of_refused count nonempty misfits with ⟨shown, found, ends⟩
  refine ⟨shown, found, ?_⟩
  constructor
  · intro tells
    by_contra hidden
    rcases tells.refuses unsuited with ⟨fault, refused, _⟩
    rw [ends, if_neg hidden] at refused
    cases refused
  · intro showable
    rw [if_pos showable] at ends
    exact ⟨fun suits => absurd suits unsuited, fun _ => ⟨_, ends, rfl⟩⟩

end Outcomes

end AbiType

open AbiType in
/-- Encoding accepts only values that fit, with sequences of any kind, and all that fit and take
fewer bytes than a word can count. It tells those that suit their types from all others exactly if,
of those that fit, the ones without other sequences are those that are addressable, no text without
an encoding stands where a text is expected, and the value that a refusal shows can be shown. -/
theorem encode_tells_fit_iff [AddressCheck] {types : List AbiType} {values : List Value}
    (nonempty : ∀ type ∈ types, type.isEmptyTuple = false) :
    ((∃ block, encode types values = .ok block) → FitsAll Value.HasEncoding types values) ∧
    ((∀ type ∈ types, type.Constructed) → blockLength types values < 2 ^ 256 →
      FitsAll Value.HasEncoding types values → ∃ block, encode types values = .ok block) ∧
    (TellsFit types values ↔
      (FitsAll Value.HasEncoding types values →
        (Value.AllPlain values ↔ AllAddressable types values ∧ HasOffsets types values)) ∧
      (FitsAll Value.IsText types values → FitsAll Value.HasEncoding types values) ∧
      (types.length = values.length → ∀ shown, firstRefused? types values = some shown →
        shown.isShowable = true)) := by
  have noneEmpty : types.any isEmptyTuple = false := by simpa using nonempty
  refine ⟨?_, ?_, ?_⟩
  · rintro ⟨block, encoded⟩
    rcases encode_eq_ok_iff.mp encoded with ⟨_, _, encodedBlock⟩
    exact (exists_block_iff_fitsAll.mp ⟨block, encodedBlock⟩).1
  · intro constructed short fits
    rcases exists_block_of_blockLength (allWellFormed_of_constructed constructed nonempty) fits
      (fun _ => short) with ⟨block, encoded⟩
    exact ⟨block, encode_eq_ok_iff.mpr ⟨length_of_fitsAll fits, noneEmpty, encoded⟩⟩
  by_cases count : types.length = values.length
  swap
  · refine iff_of_true (tellsFit_of_length_ne count) ⟨?_, ?_, fun same => absurd same count⟩
    · exact fun fits => absurd (length_of_fitsAll fits) count
    · exact fun fits => absurd (length_of_fitsAll fits) count
  by_cases fits : FitsAll Value.HasEncoding types values
  · -- What fits passes all checks, so only its size can keep it from being encoded.
    have accepted := acceptsAll_iff.mpr (fitsAll_isText_of_hasEncoding fits)
    have nothingShown := (firstRefused?_eq_none_iff count).mpr accepted
    rw [tellsFit_iff_of_fits count noneEmpty fits, nothingShown]
    simp [fits]
  by_cases texts : FitsAll Value.IsText types values
  · exact iff_of_false (not_tellsFit_of_unencodable count noneEmpty texts fits)
      fun ⟨_, encodable, _⟩ => fits (encodable texts)
  · rcases tellsFit_iff_of_refused count noneEmpty texts with ⟨shown, found, tells⟩
    rw [tells, found]
    simp [fits, texts, count]

/-- A flag that is given as a number deep inside is told from values that fit. -/
theorem encode_tells_fit_iff_flag :
    let types : List AbiType := [.array (.tuple [.string, .bool]), .address]
    let values : List Value :=
      [.list [.tuple [.text "é", .bool true], .tuple [.text "", .int 1]], .bytes (Bytes.zeros 20)]
    (∀ type ∈ types, type.isEmptyTuple = false) ∧
      ¬AbiType.Suits types values ∧ AbiType.TellsFit types values := by
  intro types values
  have nonempty : ∀ type ∈ types, type.isEmptyTuple = false := by decide
  have misfits : ¬AbiType.FitsAll Value.IsText types values := by
    rw [← AbiType.acceptsAll_iff]
    decide
  have fits : ¬AbiType.FitsAll Value.HasEncoding types values :=
    fun fits => misfits (AbiType.fitsAll_isText_of_hasEncoding fits)
  refine ⟨nonempty, fun suits => fits suits.fits, (encode_tells_fit_iff nonempty).2.2.mpr
    ⟨fun fitting => absurd fitting fits, fun texts => absurd texts misfits, ?_⟩⟩
  rintro _ shown found
  have refused : AbiType.firstRefused? types values = some (.int 1) := rfl
  have short : 1 < 10 ^ Text.digitLimit :=
    calc 1 < 10 ^ 1 := by decide
      _ ≤ 10 ^ Text.digitLimit := Nat.pow_le_pow_right (by decide) (by decide)
  rw [refused, Option.some.injEq] at found
  rw [← found, Value.isShowable]
  exact decide_eq_true short

/-- A text without an encoding is refused by a condition that is no fault. -/
theorem not_tellsFit_unencodable :
    ¬AbiType.TellsFit [.string] [.brokenText [0xd800]] := by
  intro tells
  have misfits : ¬AbiType.FitsAll Value.HasEncoding [.string] [.brokenText [0xd800]] := by
    simp [AbiType.FitsAll, AbiType.Fits, Value.HasEncoding]
  rcases tells.refuses fun suits => misfits suits.fits with ⟨fault, refused, _⟩
  have failed : encode [.string] [.brokenText [0xd800]] = Outcome.condition .unencodableText := rfl
  rw [failed] at refused
  cases refused

end ContractClient
