import ContractClient.Proofs.Outcome
import ContractClient.Proofs.Wire.Data
import Mathlib.Data.Nat.Bitwise

/-!
# The one form of an address

A value stands for the twenty bytes of an address (`Address.StandsFor`): as these bytes, or as a
text of their digits behind a marker. Whatever stands for the same bytes is written as the same
text, which is the one of EIP-55 (`Address.isChecksummed_iff`), stands for the same bytes, and is
written as itself (`Address.HasOneForm`).

The marker of a text is `0x`. It may also be missing or have a capital letter, and for texts with
such markers only the acceptance is not exact (`Address.isExact_iff`).
-/

namespace ContractClient

theorem Bytes.testBit_toNat_cons (octet : UInt8) (octets : Bytes) (position : Nat) :
    (toNat (octet :: octets)).testBit position =
      if position < 8 * octets.length then (toNat octets).testBit position
      else octet.toNat.testBit (position - 8 * octets.length) := by
  have split : toNat (octet :: octets) = 2 ^ (8 * octets.length) * octet.toNat + toNat octets := by
    have divided := toNat_append [octet] octets
    rw [Nat.pow_mul]
    simpa [toNat, Nat.mul_comm] using divided
  have small : toNat octets < 2 ^ (8 * octets.length) := by
    rw [Nat.pow_mul]
    exact toNat_lt octets
  rw [split, Nat.testBit_two_pow_mul_add octet.toNat small]

namespace Address

/-- A value stands for the bytes of an address: it is these twenty bytes, or a text of their digits,
in any case of the letters, behind one of several markers. -/
inductive StandsFor (markers : List String) : Value → Bytes → Prop
  | bytes {octets : Bytes} (size : octets.length = length) :
      StandsFor markers (.bytes octets) octets
  | buffer {octets : Bytes} (size : octets.length = length) :
      StandsFor markers (.buffer octets) octets
  | text {text marker : String} {digits : List Char} {octets : Bytes} (known : marker ∈ markers)
      (shape : text.toList = marker.toList ++ digits)
      (lower : digits.map Char.toLower = Hex.encode octets) (size : octets.length = length) :
      StandsFor markers (.text text) octets

/-- The markers that are taken besides `0x`. -/
def looseMarkers : List String := ["0X", ""]

/-- The markers that are taken. -/
def markers : List String := "0x" :: looseMarkers

/-- The number that the digest of the lower-case digits of an address is. -/
def digestNumber (octets : Bytes) : Nat :=
  Bytes.toNat (Keccak.digest ((Hex.encode octets).map fun digit => UInt8.ofNat digit.toNat))

/-- A text is the one of EIP-55: the digits of an address behind `0x`, where a letter is a capital
exactly if the digest of the lower-case digits has a one at every fourth bit, from the highest one
on. -/
def IsChecksummed (octets : Bytes) (text : String) : Prop :=
  ∃ digits, text.toList = '0' :: 'x' :: digits ∧ digits.map Char.toLower = Hex.encode octets ∧
    ∀ position character, digits[position]? = some character → character.isAlpha = true →
      (character.isUpper = true ↔ (digestNumber octets).testBit (255 - 4 * position) = true)

/-- A text of the digits of an address whose marker is missing or has a capital letter. -/
def IsLoose (value : Value) : Prop :=
  ∃ text octets, value = .text text ∧ StandsFor looseMarkers (.text text) octets

/-- A value is accepted exactly if it is twenty bytes or forty digits behind `0x`, and refused as
invalid otherwise. -/
structure IsExact (value : Value) (name : String) : Prop where
  accepted : (∃ text, normalise value name = .ok text) ↔ ∃ octets, StandsFor ["0x"] value octets
  refused {failure : Failure} (failed : normalise value name = .error failure) :
    ∃ fault, failure = .fault fault ∧ fault.kind = .validation

/-- A text is the one form of a value that stands for some bytes, and of all others that do. -/
structure HasOneForm (value : Value) (name : String) (octets : Bytes) (text : String) : Prop where
  checksummed : IsChecksummed octets text
  octetsOf_value : octetsOf value name = .ok octets
  octetsOf_text : octetsOf (.text text) name = .ok octets
  normalise_text : normalise (.text text) name = .ok text
  normalise_octets : normalise (.bytes octets) name = .ok text
  normalise_other_iff (other : Value) :
    normalise other name = .ok text ↔ octetsOf other name = .ok octets

variable {value : Value} {name text : String} {octets : Bytes} {digits : List Char}
  {character : Char} {position : Nat}

theorem standsFor_text_iff {markers : List String} : StandsFor markers (.text text) octets ↔
    octets.length = length ∧ ∃ marker ∈ markers, ∃ digits,
      text.toList = marker.toList ++ digits ∧ digits.map Char.toLower = Hex.encode octets := by
  constructor
  · rintro (_ | _ | ⟨known, shape, lower, size⟩)
    exact ⟨size, _, known, _, shape, lower⟩
  · rintro ⟨size, marker, known, digits, shape, lower⟩
    exact .text known shape lower size

theorem length_of_standsFor {markers : List String} (stands : StandsFor markers value octets) :
    octets.length = length := by
  cases stands <;> assumption

theorem read_eq_some_iff :
    (if digits.length = 2 * length then (Hex.decode? digits).map Address.mk else none) =
      some ⟨octets⟩ ↔ octets.length = length ∧ digits.map Char.toLower = Hex.encode octets := by
  rw [← Hex.decode?_eq_some_iff]
  simp only [Option.ite_none_right_eq_some, Option.map_eq_some_iff, Address.mk.injEq,
    exists_eq_right]
  refine and_congr_left fun read => ?_
  rw [Hex.length_of_decode? read]
  omega

/-- Digits have no marker among them. -/
theorem not_isMarked_of_lower (lower : digits.map Char.toLower = Hex.encode octets) :
    ¬IsMarked digits := by
  have read := Hex.decode?_eq_some_iff.mpr lower
  have noDigit : Hex.value? 'x' = none ∧ Hex.value? 'X' = none := by decide
  rintro ⟨rest, rfl | rfl⟩
  · cases rest <;> simp [Hex.decode?, noDigit] at read
  · cases rest <;> simp [Hex.decode?, noDigit] at read

/-- A value that is taken stands for its bytes strictly, or is a loose text. -/
theorem standsFor_markers_iff : StandsFor markers value octets ↔
    StandsFor ["0x"] value octets ∨ ∃ text, value = .text text ∧
      StandsFor looseMarkers (.text text) octets := by
  constructor
  · intro stands
    cases stands with
    | bytes size => exact Or.inl (.bytes size)
    | buffer size => exact Or.inl (.buffer size)
    | text known shape lower size =>
        rcases List.mem_cons.mp known with rfl | loose
        · exact Or.inl (.text (List.mem_singleton_self _) shape lower size)
        · exact Or.inr ⟨_, rfl, .text loose shape lower size⟩
  · rintro (strict | ⟨text, rfl, _ | _ | ⟨known, shape, lower, size⟩⟩)
    · cases strict with
      | bytes size => exact .bytes size
      | buffer size => exact .buffer size
      | text known shape lower size =>
          rw [List.mem_singleton.mp known] at shape
          exact .text List.mem_cons_self shape lower size
    · exact .text (List.mem_cons_of_mem _ known) shape lower size

theorem not_standsFor_of_loose {others : Bytes}
    (loose : StandsFor looseMarkers (.text text) others) :
    ¬StandsFor ["0x"] (.text text) octets := by
  intro strict
  rcases standsFor_text_iff.mp strict with ⟨_, marker, known, digits, shape, _⟩
  rw [List.mem_singleton.mp known] at shape
  rcases standsFor_text_iff.mp loose with ⟨_, other, knownOther, otherDigits, same, lower⟩
  simp only [looseMarkers, List.mem_cons, List.not_mem_nil, or_false] at knownOther
  rw [shape] at same
  rcases knownOther with rfl | rfl
  · simp at same
  · exact not_isMarked_of_lower lower ⟨digits, Or.inl same.symm⟩

theorem ofText?_eq_some_iff : ofText? text.toList = some ⟨octets⟩ ↔
    StandsFor markers (.text text) octets := by
  rw [standsFor_text_iff]
  constructor
  · intro read
    by_cases marked : IsMarked text.toList
    · rcases marked with ⟨digits, shape | shape⟩
      · rw [shape] at read
        rcases read_eq_some_iff.mp read with ⟨size, lower⟩
        exact ⟨size, "0x", by decide, digits, shape, lower⟩
      · rw [shape] at read
        rcases read_eq_some_iff.mp read with ⟨size, lower⟩
        exact ⟨size, "0X", by decide, digits, shape, lower⟩
    · rw [ofText?_of_unmarked marked, read_eq_some_iff] at read
      exact ⟨read.1, "", by decide, text.toList, rfl, read.2⟩
  · rintro ⟨size, marker, known, digits, shape, lower⟩
    have read := read_eq_some_iff.mpr ⟨size, lower⟩
    rw [shape]
    simp only [markers, looseMarkers, List.mem_cons, List.not_mem_nil, or_false] at known
    rcases known with rfl | rfl | rfl
    · exact read
    · exact read
    · exact (ofText?_of_unmarked (not_isMarked_of_lower lower)).trans read

theorem ofBytes_eq_ok_iff {others : Bytes} :
    ofValue.ofBytes name others = .ok ⟨octets⟩ ↔ others = octets ∧ octets.length = length := by
  rw [ofValue.ofBytes]
  split
  · next size =>
      rw [Except.ok.injEq, Address.mk.injEq]
      exact ⟨fun same => ⟨same, same ▸ size⟩, And.left⟩
  · next size =>
      refine iff_of_false (by simp [Outcome.fault]) ?_
      rintro ⟨rfl, sized⟩
      exact size sized

theorem ofValue_eq_ok_iff :
    ofValue value name = .ok ⟨octets⟩ ↔ StandsFor markers value octets := by
  cases value with
  | bytes others =>
      rw [ofValue, ofBytes_eq_ok_iff]
      constructor
      · rintro ⟨rfl, size⟩
        exact .bytes size
      · rintro (size | _ | _)
        exact ⟨rfl, size⟩
  | buffer others =>
      rw [ofValue, ofBytes_eq_ok_iff]
      constructor
      · rintro ⟨rfl, size⟩
        exact .buffer size
      · rintro (_ | size | _)
        exact ⟨rfl, size⟩
  | text text =>
      rw [← ofText?_eq_some_iff, ofValue]
      split <;> simp [*, ofValue.malformed, Outcome.fault]
  | _ =>
      refine iff_of_false ?_ fun stands => ?_
      · simp [ofValue, ofValue.malformed, Outcome.fault]
      · cases stands

theorem fault_of_ofBytes {failure : Failure} {others : Bytes}
    (failed : ofValue.ofBytes name others = .error failure) :
    ∃ fault, failure = .fault fault ∧ fault.kind = .validation := by
  rw [ofValue.ofBytes] at failed
  split at failed
  · cases failed
  · cases failed
    exact ⟨_, rfl, rfl⟩

/-- A value that stands for nothing is refused. -/
theorem fault_of_ofValue {failure : Failure} (failed : ofValue value name = .error failure) :
    ∃ fault, failure = .fault fault ∧ fault.kind = .validation := by
  have malformed : ofValue.malformed name = .error failure →
      ∃ fault, failure = .fault fault ∧ fault.kind = .validation := by
    intro same
    cases same
    exact ⟨_, rfl, rfl⟩
  cases value with
  | bytes others => exact fault_of_ofBytes failed
  | buffer others => exact fault_of_ofBytes failed
  | text text =>
      rw [ofValue] at failed
      split at failed
      · cases failed
      · exact malformed failed
  | _ => exact malformed failed

theorem isUpper_capitalise {value digestDigit : Nat} (small : value < 16)
    (letter : (capitalise (Hex.digit value) digestDigit).isAlpha = true) :
    (capitalise (Hex.digit value) digestDigit).isUpper = true ↔ 8 ≤ digestDigit := by
  have known : ∀ value : Fin 16, (Hex.digit value).isUpper = false ∧
      ((Hex.digit value).toUpper.isAlpha = true → (Hex.digit value).toUpper.isUpper = true) := by
    decide
  have digit := known ⟨value, small⟩
  rw [capitalise] at letter ⊢
  split
  · next high =>
      rw [if_pos high] at letter
      exact iff_of_true (digit.2 letter) high
  · next low => exact iff_of_false (by simp [digit.1]) low

/-- The highest bit of a hexadecimal digit of a byte string, counted from the highest digit on. -/
theorem testBit_toNat_of_nibbles {nibble : Nat}
    (found : (nibbles octets)[position]? = some nibble) :
    (Bytes.toNat octets).testBit (8 * octets.length - 1 - 4 * position) = true ↔ 8 ≤ nibble := by
  induction octets generalizing position with
  | nil => cases found
  | cons octet octets ih =>
      have small : octet.toNat < 256 := octet.toNat_lt
      have split : nibbles (octet :: octets) =
          octet.toNat / 16 :: octet.toNat % 16 :: nibbles octets := rfl
      rw [split] at found
      rw [Bytes.testBit_toNat_cons, List.length_cons]
      match position with
      | 0 =>
          rw [List.getElem?_cons_zero, Option.some.injEq] at found
          have highest : 8 * (octets.length + 1) - 1 - 4 * 0 - 8 * octets.length = 7 := by omega
          rw [if_neg (by omega), highest, Nat.testBit_eq_decide_div_mod_eq, decide_eq_true_eq]
          omega
      | 1 =>
          rw [List.getElem?_cons_succ, List.getElem?_cons_zero, Option.some.injEq] at found
          have middle : 8 * (octets.length + 1) - 1 - 4 * 1 - 8 * octets.length = 3 := by omega
          rw [if_neg (by omega), middle, Nat.testBit_eq_decide_div_mod_eq, decide_eq_true_eq]
          omega
      | position + 2 =>
          rw [List.getElem?_cons_succ, List.getElem?_cons_succ] at found
          have inside := (List.getElem?_eq_some_iff.mp found).1
          rw [length_nibbles] at inside
          have lower : 8 * (octets.length + 1) - 1 - 4 * (position + 2) =
              8 * octets.length - 1 - 4 * position := by omega
          rw [lower, if_pos (by omega), ih found]

theorem isChecksummed_text (size : octets.length = length) :
    IsChecksummed octets (Address.text ⟨octets⟩) := by
  refine ⟨checksumDigits octets, String.toList_ofList,
    Hex.map_toLower_of_decode? (decode?_checksumDigits size), ?_⟩
  intro position character found letter
  rw [checksumDigits, List.getElem?_zipWith_eq_some] at found
  rcases found with ⟨digit, digestDigit, digitFound, digestFound, rfl⟩
  rcases Hex.exists_digit_of_mem_encode (List.mem_of_getElem? digitFound) with ⟨value, small, rfl⟩
  have bit := testBit_toNat_of_nibbles digestFound
  rw [Keccak.length_digest] at bit
  rw [isUpper_capitalise small letter, ← bit]
  rfl

/-- A character is known by its form in lower case and by whether it is a capital letter. -/
theorem eq_of_toLower_eq {other : Char} (lower : character.toLower = other.toLower)
    (capital : character.isAlpha = true → other.isAlpha = true →
      (character.isUpper = true ↔ other.isUpper = true)) : character = other := by
  have capitals : ∀ position : Fin 26, let letter := Char.ofNat (65 + position)
      letter.isAlpha = true ∧ letter.isUpper = true ∧ letter.toLower.isAlpha = true ∧
        letter.toLower.isUpper = false ∧ letter.toLower.toUpper = letter := by
    decide
  rcases Hex.toLower_cases character with same | ⟨first, rfl⟩
  · rcases Hex.toLower_cases other with sameOther | ⟨second, rfl⟩
    · rw [← same, lower, sameOther]
    · rcases capitals second with ⟨letter, upper, letterLower, notUpper, _⟩
      rw [← same, lower] at capital
      exact absurd ((capital letterLower letter).mpr upper) (by simp [notUpper])
  · rcases capitals first with ⟨letter, upper, letterLower, notUpper, back⟩
    rcases Hex.toLower_cases other with sameOther | ⟨second, rfl⟩
    · rw [← sameOther, ← lower] at capital
      exact absurd ((capital letter letterLower).mp upper) (by simp [notUpper])
    · rw [← back, lower, (capitals second).2.2.2.2]

theorem IsChecksummed.unique {other : String} (first : IsChecksummed octets text)
    (second : IsChecksummed octets other) : text = other := by
  rcases first with ⟨digits, shape, lower, capitals⟩
  rcases second with ⟨otherDigits, otherShape, otherLower, otherCapitals⟩
  have sameDigits : digits = otherDigits := by
    refine List.ext_getElem? fun position => ?_
    have sameLower : digits[position]?.map Char.toLower =
        otherDigits[position]?.map Char.toLower := by
      rw [← List.getElem?_map, ← List.getElem?_map, lower, otherLower]
    cases found : digits[position]? with
    | none => simpa [found, eq_comm] using sameLower
    | some character =>
        rw [found, Option.map_some, eq_comm, Option.map_eq_some_iff] at sameLower
        rcases sameLower with ⟨other, otherFound, same⟩
        rw [otherFound, Option.some.injEq]
        refine eq_of_toLower_eq same.symm fun letter otherLetter => ?_
        rw [capitals position character found letter,
          otherCapitals position other otherFound otherLetter]
  rw [← String.toList_inj, shape, otherShape, sameDigits]

/-- The text of an address is the only one of EIP-55. -/
theorem isChecksummed_iff (size : octets.length = length) :
    IsChecksummed octets text ↔ text = Address.text ⟨octets⟩ := by
  refine ⟨fun checksummed => checksummed.unique (isChecksummed_text size), ?_⟩
  rintro rfl
  exact isChecksummed_text size

theorem normalise_eq_ok_iff : normalise value name = .ok text ↔
    ∃ octets, StandsFor markers value octets ∧ IsChecksummed octets text := by
  rw [normalise, Outcome.bind_eq_ok_iff]
  constructor
  · rintro ⟨⟨octets⟩, read, written⟩
    have stands := ofValue_eq_ok_iff.mp read
    refine ⟨octets, stands, (isChecksummed_iff (length_of_standsFor stands)).mpr ?_⟩
    exact (Except.ok.inj written).symm
  · rintro ⟨octets, stands, checksummed⟩
    refine ⟨⟨octets⟩, ofValue_eq_ok_iff.mpr stands, ?_⟩
    rw [(isChecksummed_iff (length_of_standsFor stands)).mp checksummed]
    rfl

theorem octetsOf_eq_ok_iff :
    octetsOf value name = .ok octets ↔ StandsFor markers value octets := by
  have written : ∀ {others : Bytes}, others.length = length →
      Hex.decode? ((Address.text ⟨others⟩).toList.drop 2) = some others := by
    intro others size
    rw [Address.text, String.toList_ofList]
    exact decode?_checksumDigits size
  rw [octetsOf, Outcome.bind_eq_ok_iff]
  constructor
  · rintro ⟨text, normalised, read⟩
    rcases normalise_eq_ok_iff.mp normalised with ⟨others, stands, checksummed⟩
    have size := length_of_standsFor stands
    rw [(isChecksummed_iff size).mp checksummed, written size] at read
    cases read
    exact stands
  · intro stands
    have size := length_of_standsFor stands
    refine ⟨Address.text ⟨octets⟩,
      normalise_eq_ok_iff.mpr ⟨octets, stands, isChecksummed_text size⟩, ?_⟩
    rw [written size]
    rfl

theorem StandsFor.unique {others : Bytes} (first : StandsFor markers value octets)
    (second : StandsFor markers value others) : octets = others := by
  have read : ofValue value "address" = .ok ⟨octets⟩ := ofValue_eq_ok_iff.mpr first
  rw [ofValue_eq_ok_iff.mpr second] at read
  cases read
  rfl

/-- A text of EIP-55 stands for its address alone. -/
theorem standsFor_of_isChecksummed (size : octets.length = length)
    (checksummed : IsChecksummed octets text) : StandsFor markers (.text text) octets := by
  rcases checksummed with ⟨digits, shape, lower, _⟩
  have marker : "0x" ∈ markers := List.mem_cons_self
  exact .text marker shape lower size

theorem hasOneForm (stands : StandsFor markers value octets)
    (checksummed : IsChecksummed octets text) : HasOneForm value name octets text := by
  have size := length_of_standsFor stands
  have again := standsFor_of_isChecksummed size checksummed
  constructor
  case checksummed => exact checksummed
  case octetsOf_value => exact octetsOf_eq_ok_iff.mpr stands
  case octetsOf_text => exact octetsOf_eq_ok_iff.mpr again
  case normalise_text => exact normalise_eq_ok_iff.mpr ⟨octets, again, checksummed⟩
  case normalise_octets => exact normalise_eq_ok_iff.mpr ⟨octets, .bytes size, checksummed⟩
  case normalise_other_iff =>
    intro other
    rw [normalise_eq_ok_iff, octetsOf_eq_ok_iff]
    constructor
    · rintro ⟨others, standsOther, checksummedOther⟩
      -- The text stands for the bytes of both.
      have standsAgain := standsFor_of_isChecksummed (length_of_standsFor standsOther)
        checksummedOther
      rwa [again.unique standsAgain]
    · exact fun standsOther => ⟨octets, standsOther, checksummed⟩

theorem exists_normalise_iff : (∃ text, normalise value name = .ok text) ↔
    ∃ octets, StandsFor markers value octets := by
  simp only [normalise_eq_ok_iff]
  constructor
  · rintro ⟨_, octets, stands, _⟩
    exact ⟨octets, stands⟩
  · rintro ⟨octets, stands⟩
    exact ⟨_, octets, stands, isChecksummed_text (length_of_standsFor stands)⟩

theorem isExact_iff : IsExact value name ↔ ¬IsLoose value := by
  constructor
  · rintro exact ⟨text, octets, rfl, loose⟩
    have stands := standsFor_markers_iff.mpr (Or.inr ⟨text, rfl, loose⟩)
    rcases exact.accepted.mp (exists_normalise_iff.mpr ⟨octets, stands⟩) with ⟨others, strict⟩
    exact not_standsFor_of_loose loose strict
  · intro strict
    constructor
    case accepted =>
      rw [exists_normalise_iff]
      refine exists_congr fun octets => ?_
      rw [standsFor_markers_iff, or_iff_left]
      rintro ⟨text, rfl, loose⟩
      exact strict ⟨text, octets, rfl, loose⟩
    case refused =>
      intro failure failed
      cases read : ofValue value name with
      | ok address =>
          rw [normalise, read] at failed
          cases failed
      | error met =>
          rw [normalise, read] at failed
          cases failed
          exact fault_of_ofValue read

theorem normalise_eq_of_letters {other : String}
    (letters : text.toList.map Char.toLower = other.toList.map Char.toLower) :
    normalise (.text text) name = normalise (.text other) name := by
  have same : ofText? text.toList = ofText? other.toList := by
    rw [← ofText?_map_toLower, letters, ofText?_map_toLower]
  rw [normalise, normalise, ofValue, ofValue, same]

/-- Addresses have one form: what stands for the same bytes is written as the same text, the one of
EIP-55, which is written as itself and read as the same bytes again. Texts that differ only in the
case of their letters are written alike. What is taken is exactly what should be, unless the marker
of a text is missing or has a capital letter. -/
theorem one_form_unless_loose (value : Value) (name : String) :
    (IsExact value name ↔ ¬IsLoose value) ∧
    (∀ octets, octetsOf value name = .ok octets ↔ StandsFor markers value octets) ∧
    (∀ text, normalise value name = .ok text →
      ∃ octets, StandsFor markers value octets ∧ HasOneForm value name octets text) ∧
    ∀ text other : String, text.toList.map Char.toLower = other.toList.map Char.toLower →
      normalise (.text text) name = normalise (.text other) name := by
  refine ⟨isExact_iff, fun _ => octetsOf_eq_ok_iff, fun text normalised => ?_,
    fun _ _ => normalise_eq_of_letters⟩
  rcases normalise_eq_ok_iff.mp normalised with ⟨octets, stands, checksummed⟩
  exact ⟨octets, stands, hasOneForm stands checksummed⟩

/-- Forty digits without a marker are taken as an address. -/
theorem not_isExact_unmarked :
    ¬IsExact (.text "5fbdb2315678afecb367f032d93f642f64180aa3") "address" := by
  have lower : "5fbdb2315678afecb367f032d93f642f64180aa3".toList.map Char.toLower =
      Hex.encode [0x5f, 0xbd, 0xb2, 0x31, 0x56, 0x78, 0xaf, 0xec, 0xb3, 0x67, 0xf0, 0x32, 0xd9,
        0x3f, 0x64, 0x2f, 0x64, 0x18, 0x0a, 0xa3] := by
    decide
  have missing : "" ∈ looseMarkers := by decide
  rw [isExact_iff, not_not]
  exact ⟨_, _, rfl, .text missing rfl lower rfl⟩

end Address

end ContractClient
