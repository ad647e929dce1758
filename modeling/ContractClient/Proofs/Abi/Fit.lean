import ContractClient.Proofs.Abi.Layout

/-!
# Values that fit types

`AbiType.Fits` says which values fit a type, at every depth. It leaves open what counts as a text:
only texts that have an encoding can be encoded (`Value.HasEncoding`), but texts of all kinds pass
the checks of a type (`Value.IsText`, `AbiType.accepts_iff`). Which texts name addresses is up to
the library, too: `AddressCheck.checksum` is the check by which letters of both cases have to be
right.

A value has a payload exactly if it fits and is addressable (`AbiType.exists_payload_iff`): every
length and every offset that its payload holds fits a word.
-/

namespace ContractClient

/-- A text that has a UTF-8 form. -/
def Value.HasEncoding (value : Value) : Prop :=
  ∃ text, value = .text text

/-- A text of any kind. -/
def Value.IsText (value : Value) : Prop :=
  value.HasEncoding ∨ ∃ codePoints, value = .brokenText codePoints

/-- The markers that may stand in front of the digits of an address. -/
def Address.frontMarkers : List (List Char) := [[], ['0', 'x'], ['0', 'X']]

/-- Forty hexadecimal digits, with or without a marker in front. -/
def Address.IsWritten (characters : List Char) : Prop :=
  ∃ marker ∈ frontMarkers, ∃ digits, characters = marker ++ digits ∧
    digits.length = 2 * length ∧ ∀ digit ∈ digits, Hex.isDigit digit = true

namespace Value

mutual

/-- Of all sequences, a value is and holds only lists and tuples. -/
def IsPlain : Value → Prop
  | list items => AllPlain items
  | tuple items => AllPlain items
  | sequence _ _ _ => False
  | _ => True

/-- Of all sequences, several values are and hold only lists and tuples. -/
def AllPlain : List Value → Prop
  | [] => True
  | item :: items => IsPlain item ∧ AllPlain items

end

end Value

namespace AbiType

section Definitions

variable [AddressCheck] (isText : Value → Prop)

mutual

/-- A value fits a type. -/
def Fits : AbiType → Value → Prop
  | uint bits, value => ∃ number, value = .int number ∧ 0 ≤ number ∧ number < 2 ^ bits
  | int bits, value =>
    ∃ number, value = .int number ∧ -2 ^ (bits - 1) ≤ number ∧ number < 2 ^ (bits - 1)
  | address, value =>
    (∃ octets, value.octets? = some octets ∧ octets.length = Address.length) ∨
      ∃ text, value = .text text ∧ Address.IsWritten text.toList ∧
        AddressCheck.takes text.toList = true
  | bool, value => ∃ flag, value = .bool flag
  | fixedBytes size, value => ∃ octets, value.octets? = some octets ∧ octets.length ≤ size
  | bytes, value => ∃ octets, value.octets? = some octets
  | string, value => isText value
  | fixedArray item length, value =>
    ∃ items, value.items? = some items ∧ items.length = length ∧ ∀ entry ∈ items, Fits item entry
  | array item, value => ∃ items, value.items? = some items ∧ ∀ entry ∈ items, Fits item entry
  | tuple components, value => ∃ items, value.items? = some items ∧ FitsAll components items

/-- There is one value for each type, and it fits. -/
def FitsAll : List AbiType → List Value → Prop
  | [], [] => True
  | type :: types, value :: values => Fits type value ∧ FitsAll types values
  | _, _ => False

end

end Definitions

/-- The offsets of a block fit words. -/
def HasOffsets [AddressCheck] (types : List AbiType) (values : List Value) : Prop :=
  ∀ parts, parts? types values = some parts → offsetsFit (headLength parts) parts = true

mutual

/-- Every length and every offset in the payload of a value fits a word. -/
def IsAddressable [AddressCheck] : AbiType → Value → Prop
  | bytes, value => ∀ octets, value.octets? = some octets → octets.length < 2 ^ 256
  | string, value => ∀ text, value = .text text → (Bytes.ofText text).length < 2 ^ 256
  | fixedArray item length, value => ∀ items, value.items? = some items →
      (∀ entry ∈ items, IsAddressable item entry) ∧ HasOffsets (List.replicate length item) items
  | array item, value => ∀ items, value.items? = some items →
      items.length < 2 ^ 256 ∧ (∀ entry ∈ items, IsAddressable item entry) ∧
        HasOffsets (List.replicate items.length item) items
  | tuple components, value => ∀ items, value.items? = some items →
      AllAddressable components items ∧ HasOffsets components items
  | _, _ => True

/-- Every length and every offset in the payloads of several values fits a word. -/
def AllAddressable [AddressCheck] : List AbiType → List Value → Prop
  | type :: types, value :: values => IsAddressable type value ∧ AllAddressable types values
  | _, _ => True

end

end AbiType

namespace Address

variable {characters digits : List Char}

/-- What is read behind a marker, or without one. -/
theorem isSome_read_iff :
    (if digits.length = 2 * length then (Hex.decode? digits).map Address.mk else none).isSome =
        true ↔
      digits.length = 2 * length ∧ ∀ digit ∈ digits, Hex.isDigit digit = true := by
  split
  · next even => simp [Hex.isSome_decode?_iff even, even]
  · next odd => simp [odd]

theorem exists_marker (characters : List Char) :
    ∃ marker ∈ frontMarkers, characters = marker ++ unmarked characters := by
  unfold unmarked
  split
  · exact ⟨['0', 'x'], by decide, rfl⟩
  · exact ⟨['0', 'X'], by decide, rfl⟩
  · exact ⟨[], by decide, rfl⟩

/-- No marker is taken for digits. -/
theorem unmarked_append {marker : List Char} (known : marker ∈ frontMarkers)
    (allDigits : ∀ digit ∈ digits, Hex.isDigit digit = true) :
    unmarked (marker ++ digits) = digits := by
  simp only [frontMarkers, List.mem_cons, List.not_mem_nil, or_false] at known
  rcases known with rfl | rfl | rfl
  · have noDigit : Hex.isDigit 'x' = false ∧ Hex.isDigit 'X' = false := by decide
    apply unmarked_eq_self
    rintro ⟨rest, rfl | rfl⟩
    · simp [noDigit] at allDigits
    · simp [noDigit] at allDigits
  · rfl
  · rfl

theorem isSome_ofText?_iff : (ofText? characters).isSome = true ↔ IsWritten characters := by
  constructor
  · intro read
    rcases exists_marker characters with ⟨marker, known, same⟩
    exact ⟨marker, known, _, same, isSome_read_iff.mp read⟩
  · rintro ⟨marker, known, digits, rfl, count, allDigits⟩
    rw [ofText?, unmarked_append known allDigits]
    exact isSome_read_iff.mpr ⟨count, allDigits⟩

theorem hasChecksum_iff : hasChecksum characters = true ↔
    (∀ digit ∈ unmarked characters, digit.isUpper = false) ∨
      (∀ digit ∈ unmarked characters, digit.isLower = false) ∨
        ∃ octets, octets.length = length ∧ characters = (Address.text ⟨octets⟩).toList := by
  have oneCase : (!isMixed (unmarked characters)) = true ↔
      (∀ digit ∈ unmarked characters, digit.isUpper = false) ∨
        ∀ digit ∈ unmarked characters, digit.isLower = false := by
    simp only [isMixed, Bool.not_eq_true', Bool.and_eq_false_iff, List.any_eq_false,
      Bool.not_eq_true]
  have written : (ofText? characters).any (fun address => characters == address.text.toList) =
      true ↔ ∃ octets, octets.length = length ∧ characters = (Address.text ⟨octets⟩).toList := by
    simp only [Option.any_eq_true, beq_iff_eq]
    constructor
    · rintro ⟨address, read, same⟩
      exact ⟨address.octets, length_of_ofText? read, same⟩
    · rintro ⟨octets, size, rfl⟩
      exact ⟨⟨octets⟩, ofText?_toList_text size, rfl⟩
  rw [hasChecksum, Bool.or_eq_true, oneCase, written, or_assoc]

end Address

/-- The check of EIP-55: of the texts with letters of both cases only those of addresses are
taken. -/
@[reducible]
def AddressCheck.checksum : AddressCheck where
  takes := Address.hasChecksum
  takes_text octets size := Address.hasChecksum_iff.mpr (Or.inr (Or.inr ⟨octets, size, rfl⟩))

/-- By the check of EIP-55 a text stands for an address if its letters are of one case, or are the
capitals and small letters of the address. -/
theorem AbiType.fits_address_checksum_iff {isText : Value → Prop} {text : String} :
    letI := AddressCheck.checksum
    Fits isText .address (.text text) ↔ Address.IsWritten text.toList ∧
      ((∀ digit ∈ Address.unmarked text.toList, digit.isUpper = false) ∨
        (∀ digit ∈ Address.unmarked text.toList, digit.isLower = false) ∨
          ∃ octets, octets.length = Address.length ∧
            text.toList = (Address.text ⟨octets⟩).toList) := by
  rw [← Address.hasChecksum_iff]
  have taken : AddressCheck.checksum.takes text.toList = Address.hasChecksum text.toList := rfl
  simp [Fits, Value.octets?, taken]

namespace AbiType

variable [AddressCheck] {isText : Value → Prop} {type item : AbiType} {types : List AbiType}
  {value : Value} {values items : List Value}

theorem isSome_acceptedAddress?_iff :
    (acceptedAddress? value).isSome = true ↔ Fits isText .address value := by
  rw [Fits]
  cases value with
  | text text =>
      cases taken : AddressCheck.takes text.toList <;>
        simp [acceptedAddress?, addressOf?, Value.octets?, taken, Address.isSome_ofText?_iff]
  | bytes octets | buffer octets => simp [acceptedAddress?, addressOf?, Value.octets?]
  | _ => simp [acceptedAddress?, addressOf?, Value.octets?]

theorem fitsAll_cons_iff :
    FitsAll isText (type :: types) values ↔
      ∃ value rest, values = value :: rest ∧ Fits isText type value ∧
        FitsAll isText types rest := by
  cases values <;> simp [FitsAll]

theorem length_of_fitsAll (fits : FitsAll isText types values) : types.length = values.length := by
  induction types generalizing values with
  | nil => cases values <;> simp_all [FitsAll]
  | cons type types ih =>
      rcases fitsAll_cons_iff.mp fits with ⟨value, rest, rfl, _, fitsRest⟩
      simp [ih fitsRest]

theorem fitsAll_replicate_iff :
    FitsAll isText (List.replicate items.length item) items ↔
      ∀ entry ∈ items, Fits isText item entry := by
  induction items with
  | nil => simp [FitsAll]
  | cons entry items ih => simp [List.replicate_succ, FitsAll, ih]

theorem allAddressable_replicate_iff :
    AllAddressable (List.replicate items.length item) items ↔
      ∀ entry ∈ items, IsAddressable item entry := by
  induction items with
  | nil => simp [AllAddressable]
  | cons entry items ih => simp [List.replicate_succ, AllAddressable, ih]

theorem fitsAll_mono_of_forall {other : Value → Prop}
    (each : ∀ type ∈ types, ∀ value, Fits isText type value → Fits other type value)
    (fits : FitsAll isText types values) : FitsAll other types values := by
  induction types generalizing values with
  | nil => cases values <;> simp_all [FitsAll]
  | cons type types ih =>
      rw [List.forall_mem_cons] at each
      rcases fitsAll_cons_iff.mp fits with ⟨value, rest, rfl, fitsFirst, fitsRest⟩
      exact ⟨each.1 value fitsFirst, ih each.2 fitsRest⟩

/-- What fits still fits when more counts as a text. -/
theorem fits_mono {other : Value → Prop} (weaker : ∀ value, isText value → other value)
    (type : AbiType) (value : Value) (fits : Fits isText type value) : Fits other type value := by
  induction type generalizing value with
  | string => exact weaker value fits
  | fixedArray item length ih =>
      rcases fits with ⟨items, found, count, each⟩
      exact ⟨items, found, count, fun entry member => ih entry (each entry member)⟩
  | array item ih =>
      rcases fits with ⟨items, found, each⟩
      exact ⟨items, found, fun entry member => ih entry (each entry member)⟩
  | tuple components ih =>
      rcases fits with ⟨items, found, each⟩
      exact ⟨items, found, fitsAll_mono_of_forall ih each⟩
  | _ => exact fits

theorem fitsAll_isText_of_hasEncoding (fits : FitsAll Value.HasEncoding types values) :
    FitsAll Value.IsText types values :=
  fitsAll_mono_of_forall (fun type _ => fits_mono (fun _ encoded => Or.inl encoded) type) fits

/-- The values of a block have payloads exactly if they fit and are addressable, provided that this
holds of the types of the block. -/
theorem exists_parts_iff
    (each : ∀ type ∈ types, ∀ value, (∃ content, payload? type value = some content) ↔
      Fits Value.HasEncoding type value ∧ IsAddressable type value) :
    (∃ parts, parts? types values = some parts) ↔
      FitsAll Value.HasEncoding types values ∧ AllAddressable types values := by
  induction types generalizing values with
  | nil => cases values <;> simp [FitsAll, AllAddressable, parts?]
  | cons type types ih =>
      rw [List.forall_mem_cons] at each
      cases values with
      | nil => simp [FitsAll, parts?]
      | cons value values =>
          have first := each.1 value
          have rest := @ih values each.2
          simp only [parts?, FitsAll, AllAddressable, Option.bind_eq_bind, Option.bind_eq_some_iff,
            Option.some.injEq]
          constructor
          · rintro ⟨_, content, payload, parts, encoded, rfl⟩
            have fits := first.mp ⟨content, payload⟩
            have fitsRest := rest.mp ⟨parts, encoded⟩
            exact ⟨⟨fits.1, fitsRest.1⟩, fits.2, fitsRest.2⟩
          · rintro ⟨⟨fits, fitsRest⟩, addressable, addressableRest⟩
            rcases first.mpr ⟨fits, addressable⟩ with ⟨content, payload⟩
            rcases rest.mpr ⟨fitsRest, addressableRest⟩ with ⟨parts, encoded⟩
            exact ⟨_, content, payload, parts, encoded, rfl⟩

/-- Values have a block exactly if they have payloads and its offsets fit words. -/
theorem exists_block_iff :
    (∃ block, block? types values = some block) ↔
      (∃ parts, parts? types values = some parts) ∧ HasOffsets types values := by
  simp only [block?_eq_some_iff, HasOffsets]
  constructor
  · rintro ⟨block, parts, encoded, fits, _⟩
    refine ⟨⟨parts, encoded⟩, ?_⟩
    intro others same
    rw [encoded, Option.some.injEq] at same
    rwa [← same]
  · rintro ⟨⟨parts, encoded⟩, offsets⟩
    exact ⟨layout parts, parts, encoded, offsets parts encoded, rfl⟩

/-- The items of an array have a block exactly if they fit and are addressable. -/
theorem exists_block_replicate_iff
    (each : ∀ value, (∃ content, payload? item value = some content) ↔
      Fits Value.HasEncoding item value ∧ IsAddressable item value) :
    (∃ block, block? (List.replicate items.length item) items = some block) ↔
      (∀ entry ∈ items, Fits Value.HasEncoding item entry) ∧
        (∀ entry ∈ items, IsAddressable item entry) ∧
          HasOffsets (List.replicate items.length item) items := by
  rw [exists_block_iff, exists_parts_iff, fitsAll_replicate_iff, allAddressable_replicate_iff,
    and_assoc]
  intro type member
  rw [List.eq_of_mem_replicate member]
  exact each

/-- A value has a payload exactly if it fits and is addressable. -/
theorem exists_payload_iff (type : AbiType) (value : Value) :
    (∃ content, payload? type value = some content) ↔
      Fits Value.HasEncoding type value ∧ IsAddressable type value := by
  induction type generalizing value with
  | uint bits => simp [payload?_uint_eq_some_iff, Fits, IsAddressable, fitsUnsigned]
  | int bits => simp [payload?_int_eq_some_iff, Fits, IsAddressable, fitsSigned]
  | address =>
      rw [← isSome_acceptedAddress?_iff, Option.isSome_iff_exists]
      simp [payload?_address_eq_some_iff, IsAddressable]
  | bool => cases value <;> simp [payload?_bool_eq_some_iff, Fits, IsAddressable]
  | fixedBytes size => simp [payload?_fixedBytes_eq_some_iff, Fits, IsAddressable]
  | bytes =>
      simp only [payload?_bytes_eq_some_iff, Fits, IsAddressable]
      cases value.octets? <;> simp
  | string => cases value <;>
      simp [payload?_string_eq_some_iff, Fits, IsAddressable, Value.HasEncoding]
  | fixedArray item length ih =>
      rw [Fits, IsAddressable]
      simp only [payload?_fixedArray_eq_some_iff]
      cases found : value.items? with
      | none => simp
      | some items =>
          simp only [Option.some.injEq, exists_eq_left', forall_eq']
          constructor
          · rintro ⟨block, rfl, encoded⟩
            have members := (exists_block_replicate_iff ih).mp ⟨block, encoded⟩
            exact ⟨⟨rfl, members.1⟩, members.2⟩
          · rintro ⟨⟨rfl, fits⟩, addressable⟩
            rcases (exists_block_replicate_iff ih).mpr ⟨fits, addressable⟩ with ⟨block, encoded⟩
            exact ⟨block, rfl, encoded⟩
  | array item ih =>
      rw [Fits, IsAddressable]
      simp only [payload?_array_eq_some_iff]
      cases found : value.items? with
      | none => simp
      | some items =>
          simp only [Option.some.injEq, exists_eq_left', forall_eq']
          constructor
          · rintro ⟨_, _, block, rfl, short, encoded, _⟩
            have members := (exists_block_replicate_iff ih).mp ⟨block, encoded⟩
            exact ⟨members.1, short, members.2⟩
          · rintro ⟨fits, short, addressable⟩
            rcases (exists_block_replicate_iff ih).mpr ⟨fits, addressable⟩ with ⟨block, encoded⟩
            exact ⟨_, items, block, rfl, short, encoded, rfl⟩
  | tuple components ih =>
      rw [Fits, IsAddressable]
      simp only [payload?_tuple_eq_some_iff]
      cases found : value.items? with
      | none => simp
      | some items =>
          simp only [Option.some.injEq, exists_eq_left', forall_eq']
          rw [exists_block_iff, exists_parts_iff ih, and_assoc]

/-- Several values have a block exactly if they fit and are addressable. -/
theorem exists_block_iff_fitsAll :
    (∃ block, block? types values = some block) ↔
      FitsAll Value.HasEncoding types values ∧ AllAddressable types values ∧
        HasOffsets types values := by
  rw [exists_block_iff, exists_parts_iff fun type _ => exists_payload_iff type, and_assoc]

theorem acceptsAll_iff_of_forall
    (each : ∀ type ∈ types, ∀ value, accepts type value = true ↔ Fits Value.IsText type value) :
    acceptsAll types values = true ↔ FitsAll Value.IsText types values := by
  induction types generalizing values with
  | nil => cases values <;> simp [acceptsAll, FitsAll]
  | cons type types ih =>
      rw [List.forall_mem_cons] at each
      cases values with
      | nil => simp [acceptsAll, FitsAll]
      | cons value values =>
          rw [acceptsAll, FitsAll, Bool.and_eq_true, each.1, ih each.2]

/-- The checks of a type let texts of all kinds pass. -/
theorem accepts_iff (type : AbiType) (value : Value) :
    accepts type value = true ↔ Fits Value.IsText type value := by
  induction type generalizing value with
  | uint bits => cases value <;> simp [accepts, Fits, fitsUnsigned]
  | int bits => cases value <;> simp [accepts, Fits, fitsSigned]
  | address => rw [accepts, isSome_acceptedAddress?_iff]
  | bool => cases value <;> simp [accepts, Fits]
  | fixedBytes size =>
      rw [accepts, Fits]
      cases value.octets? <;> simp
  | bytes =>
      rw [accepts, Fits, Option.isSome_iff_exists]
  | string => cases value <;> simp [accepts, Fits, Value.IsText, Value.HasEncoding]
  | fixedArray item length ih =>
      rw [accepts, Fits]
      cases value.items? <;> simp [ih]
  | array item ih =>
      rw [accepts, Fits]
      cases value.items? <;> simp [ih]
  | tuple components ih =>
      rw [accepts, Fits]
      cases value.items? with
      | none => simp
      | some items => simp [acceptsAll_iff_of_forall ih]

theorem acceptsAll_iff : acceptsAll types values = true ↔ FitsAll Value.IsText types values :=
  acceptsAll_iff_of_forall fun type _ => accepts_iff type

end AbiType

end ContractClient
