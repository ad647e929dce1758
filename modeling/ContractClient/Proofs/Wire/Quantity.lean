import ContractClient.Proofs.Text.Numeral

/-!
# Quantities and the texts that are read as quantities

A number has one quantity, which is recognised and read as that number. Quantities may be written
with capital digits (`Quantity.IsQuantity`), and what is read may have leading zeros
(`Quantity.IsHexadecimal`).

The recogniser and the reader accept more than that: a line break after a quantity, and around and
between the digits everything that integers may have (`Quantity.IsRead`). The three agree on a text
(`Quantity.IsExact`) unless it is read and has a character that is no letter or digit of ASCII.
-/

namespace ContractClient

namespace Hex

variable {character : Char} {digits : List Char} {number : Nat}

theorem value?_eq_none_of_behind (behind : 0x7f ≤ character.toNat) :
    value? character = none := by
  have above : ∀ bound : Char, bound.toNat < 0x7f → ¬character ≤ bound := by
    intro bound small below
    have notAbove : character.toNat ≤ bound.toNat := below
    omega
  simp [value?, above '9' (by decide), above 'f' (by decide), above 'F' (by decide)]

theorem isAlphanum_of_value? {value : Nat} (digit : value? character = some value) :
    character.isAlphanum = true := by
  have ascii : character.toNat < 0x7f := by
    by_contra behind
    rw [value?_eq_none_of_behind (by omega)] at digit
    cases digit
  have known : isDigit character = true → character.isAlphanum = true :=
    Text.forall_of_ascii (motive := fun other => isDigit other = true → other.isAlphanum = true)
      (by decide) ascii
  exact known (by rw [isDigit, digit, Option.isSome_some])

theorem isAlphanum_of_isDigit (digit : isDigit character = true) :
    character.isAlphanum = true := by
  rcases Option.isSome_iff_exists.mp digit with ⟨value, known⟩
  exact isAlphanum_of_value? known

theorem toLower_of_value? {value : Nat} (known : value? character = some value) :
    value < 16 ∧ character.toLower = Nat.digitChar value := by
  have ascii : character.toNat < 0x7f :=
    (Text.isVisible_of_isAlphanum (isAlphanum_of_value? known)).2
  have all : ∀ found ∈ value? character, found < 16 ∧
      character.toLower = Nat.digitChar found :=
    Text.forall_of_ascii (motive := fun other => ∀ found ∈ value? other, found < 16 ∧
      other.toLower = Nat.digitChar found) (by decide) ascii
  exact all value known

theorem eq_zero_of_value? (known : value? character = some 0) : character = '0' := by
  have ascii : character.toNat < 0x7f :=
    (Text.isVisible_of_isAlphanum (isAlphanum_of_value? known)).2
  exact Text.forall_of_ascii (motive := fun other => value? other = some 0 → other = '0')
    (by decide) ascii known

theorem number?_map_toLower (digits : List Char) :
    number? (digits.map Char.toLower) = number? digits := by
  simp only [number?, List.foldlM_map, value?_toLower]

theorem isDigit_of_number? (numbered : number? digits = some number) :
    ∀ character ∈ digits, isDigit character = true := by
  induction digits using List.reverseRecOn generalizing number with
  | nil => simp
  | append_singleton digits last ih =>
      simp only [number?, List.foldlM_append, List.foldlM_cons, List.foldlM_nil,
        Option.bind_eq_bind, Option.bind_eq_some_iff, Option.map_eq_some_iff] at numbered
      rcases numbered with ⟨total, before, _, ⟨value, known, rfl⟩, _⟩
      rw [List.forall_mem_append, List.forall_mem_singleton]
      exact ⟨ih before, by rw [isDigit, known, Option.isSome_some]⟩

theorem exists_value_of_isDigit (digit : isDigit character = true) :
    ∃ value < 16, value? character = some value ∧
      Nat.digitChar value = character.toLower := by
  rcases Option.isSome_iff_exists.mp digit with ⟨value, known⟩
  rcases toLower_of_value? known with ⟨small, lower⟩
  exact ⟨value, small, known, lower.symm⟩

end Hex

namespace Quantity

open Text

/-- A text that is the quantity of a number, in any case of the digits. -/
def IsQuantity (text : List Char) (number : Nat) : Prop :=
  ∃ digits, text = '0' :: 'x' :: digits ∧
    '0' :: 'x' :: digits.map Char.toLower = (ofNat number).toList

/-- A text of hexadecimal digits after a marker, with the number that they write. -/
def IsHexadecimal (text : List Char) (number : Nat) : Prop :=
  ∃ marker digits, text = '0' :: marker :: digits ∧ (marker = 'x' ∨ marker = 'X') ∧ digits ≠ [] ∧
    Hex.number? digits = some number

/-- The value of a hexadecimal digit, or of a decimal digit of any script. -/
def digitValue? (character : Char) : Option Nat :=
  Hex.value? character <|> Text.digitValue? character

def isDigit (character : Char) : Bool :=
  (digitValue? character).isSome

def number? (digits : List Char) : Option Nat :=
  digits.foldlM (fun total digit => (digitValue? digit).map (total * 16 + ·)) 0

/-- A text that is read as a number: after the marker come digits of any script. An underscore may
stand before them and single ones between them, and blanks may follow. -/
def IsRead (text : List Char) (number : Nat) : Prop :=
  ∃ marker lead body blanks digits, text = '0' :: marker :: (lead ++ body ++ blanks) ∧
    (marker = 'x' ∨ marker = 'X') ∧ (lead = [] ∨ lead = ['_']) ∧ Joins isDigit body digits ∧
    (∀ character ∈ blanks, isPadding character = true) ∧ number? digits = some number

/-- A text that is read although not all of its characters are letters and digits of ASCII. -/
def IsLoose (text : List Char) : Prop :=
  (∃ number, IsRead text number) ∧ ∃ character ∈ text, character.isAlphanum = false

/-- The recogniser takes a text exactly if it is a quantity, and the reader exactly if it consists
of hexadecimal digits after a marker; it refuses every other text as invalid. -/
structure IsExact (text : String) : Prop where
  recognised : isCanonical text.toList = true ↔ ∃ number, IsQuantity text.toList number
  read (number : Int) : toInt (.text text) = .ok number ↔
    ∃ value : Nat, number = value ∧ IsHexadecimal text.toList value
  refused {failure : Failure} (failed : toInt (.text text) = .error failure) :
    failure = .fault (invalid (.text text)) ∧ (invalid (.text text)).kind = .validation

variable {character marker : Char} {text digits rest : List Char} {number : Nat}

/-- A character is the digit that it is read as. -/
theorem value?_toAscii (character : Char) :
    Hex.value? (toAscii character) = digitValue? character := by
  have meaning := standsFor_toAscii character
  rw [digitValue?]
  generalize toAscii character = ascii at meaning
  cases meaning with
  | itself inAscii =>
      have decimal : ∀ {other : Char}, other.toNat < 0x7f → other.isDigit = true →
          Hex.value? other = some (other.toNat - '0'.toNat) := fun small =>
        forall_of_ascii (motive := fun other => other.isDigit = true →
          Hex.value? other = some (other.toNat - '0'.toNat)) (by decide) small
      rw [digitValue?_of_ascii inAscii]
      split
      · next digit => simp [decimal inAscii digit]
      · simp
  | blank behind blank =>
      rw [Hex.value?_eq_none_of_behind behind, digitValue?_of_isBlank blank]
      rfl
  | @digit value behind found =>
      have known : ∀ value : Fin 10,
          Hex.value? (Char.ofNat ('0'.toNat + value)) = some value.val := by decide
      rw [Hex.value?_eq_none_of_behind behind, found]
      exact known ⟨value, digitValue?_lt found⟩
  | nothing behind notBlank notDigit =>
      rw [Hex.value?_eq_none_of_behind behind, notDigit]
      rfl

theorem isDigit_toAscii : Hex.isDigit ∘ toAscii = isDigit :=
  funext fun character => by rw [Function.comp_apply, Hex.isDigit, value?_toAscii, isDigit]

theorem number?_map_toAscii (digits : List Char) :
    Hex.number? (digits.map toAscii) = number? digits := by
  simp only [Hex.number?, number?, List.foldlM_map, value?_toAscii]

theorem isPadding_of_isDigit (digit : isDigit character = true) : isPadding character = false := by
  rw [← isDigit_toAscii, Function.comp_apply] at digit
  rw [← isAsciiBlank_toAscii]
  exact (isVisible_of_isAlphanum (Hex.isAlphanum_of_isDigit digit)).not_asciiBlank

/-- Behind the marker, letters and digits of ASCII have no other meaning than their own. -/
theorem toAscii_of_isAlphanum (alphanumeric : character.isAlphanum = true) :
    toAscii character = character :=
  if_pos (isVisible_of_isAlphanum alphanumeric).2

/-- A text without the underscore that may stand before its digits. -/
def withoutLead : List Char → List Char
  | '_' :: rest => rest
  | rest => rest

theorem exists_lead (text : List Char) :
    ∃ lead, text = lead ++ withoutLead text ∧ (lead = [] ∨ lead = ['_']) := by
  unfold withoutLead
  split
  · exact ⟨['_'], rfl, Or.inr rfl⟩
  · exact ⟨[], rfl, Or.inl rfl⟩

theorem withoutLead_cons_of_ne (other : character ≠ '_') :
    withoutLead (character :: text) = character :: text := by
  rw [withoutLead]
  simpa using other

theorem withoutLead_map_toAscii (text : List Char) :
    withoutLead (text.map toAscii) = (withoutLead text).map toAscii := by
  cases text with
  | nil => rfl
  | cons first rest =>
      by_cases separator : first = '_'
      · rw [separator]
        rfl
      · rw [withoutLead_cons_of_ne separator, List.map_cons,
          withoutLead_cons_of_ne (mt toAscii_eq_separator_iff.mp separator)]

theorem splitMarker_cons (isMarker : marker = 'x' ∨ marker = 'X') :
    splitMarker ('0' :: marker :: text) = withoutLead text := by
  rcases isMarker with rfl | rfl
  all_goals
    cases text with
    | nil => rfl
    | cons first rest =>
        by_cases separator : first = '_'
        · rw [separator]
          rfl
        · rw [withoutLead_cons_of_ne separator]
          simp [splitMarker, separator]

/-- What is read after a marker: the digits that are left when the blanks at the end and an
underscore at the start are taken away. -/
theorem hexInteger?_cons (isMarker : marker = 'x' ∨ marker = 'X') :
    hexInteger? ('0' :: marker :: rest) =
      (separatedDigits? Hex.isDigit
        ((withoutLead (rest.rdropWhile isPadding)).map toAscii)).bind
          fun digits => (Hex.number? digits).map Int.ofNat := by
  have solid : isPadding marker = false ∧ toAscii marker = marker := by
    rcases isMarker with rfl | rfl <;> exact ⟨by decide, rfl⟩
  have stripped : stripAscii (foldDigits ('0' :: marker :: rest)) =
      '0' :: marker :: (rest.rdropWhile isPadding).map toAscii := by
    rw [stripAscii_foldDigits_cons (by decide), rdropWhile_cons_of_neg (by decide),
      rdropWhile_cons_of_neg solid.1, List.map_cons, List.map_cons, solid.2]
    rfl
  rw [hexInteger?, stripped, splitSign_of_ne (by decide) (by decide)]
  simp only [splitMarker_cons isMarker, withoutLead_map_toAscii]
  cases separatedDigits? Hex.isDigit ((withoutLead (rest.rdropWhile isPadding)).map toAscii) with
  | none => rfl
  | some digits =>
      simp only [Option.bind_eq_bind, Option.bind_some]
      cases Hex.number? digits <;> rfl

theorem rdropWhile_body {lead body blanks : List Char} (joins : Joins isDigit body digits)
    (padded : ∀ character ∈ blanks, isPadding character = true) :
    (lead ++ body ++ blanks).rdropWhile isPadding = lead ++ body := by
  induction blanks using List.reverseRecOn with
  | nil =>
      rcases joins.exists_last with ⟨start, last, rfl, digit⟩
      rw [List.append_nil, ← List.append_assoc]
      exact List.rdropWhile_concat_neg _ _ _ (by simp [isPadding_of_isDigit digit])
  | append_singleton blanks blank ih =>
      rw [List.forall_mem_append, List.forall_mem_singleton] at padded
      rw [← List.append_assoc, List.rdropWhile_concat_pos _ _ _ padded.2, ih padded.1]

theorem withoutLead_body {lead body : List Char} (joins : Joins isDigit body digits)
    (isLead : lead = [] ∨ lead = ['_']) : withoutLead (lead ++ body) = body := by
  rcases isLead with rfl | rfl
  · rcases joins.exists_first with ⟨first, rest, rfl, digit⟩
    refine withoutLead_cons_of_ne ?_
    rintro rfl
    exact absurd digit (by decide)
  · rfl

/-- The reader looks for the marker, and leaves the rest to the reader of integers. -/
theorem ofText?_eq_hexInteger? {value : Int} : ofText? text = some value ↔
    ∃ marker rest, text = '0' :: marker :: rest ∧ (marker = 'x' ∨ marker = 'X') ∧
      hexInteger? text = some value := by
  constructor
  · intro read
    unfold ofText? at read
    split at read
    · exact ⟨'x', _, rfl, Or.inl rfl, read⟩
    · exact ⟨'X', _, rfl, Or.inr rfl, read⟩
    · cases read
  · rintro ⟨marker, rest, rfl, isMarker, read⟩
    cases rest with
    | nil =>
        rw [hexInteger?_cons isMarker] at read
        cases read
    | cons first rest => rcases isMarker with rfl | rfl <;> exact read

/-- A text is read as an integer exactly if it is read as a number. -/
theorem ofText?_eq_some_iff {value : Int} :
    ofText? text = some value ↔ ∃ number : Nat, value = number ∧ IsRead text number := by
  rw [ofText?_eq_hexInteger?]
  constructor
  · rintro ⟨marker, rest, rfl, isMarker, read⟩
    rw [hexInteger?_cons isMarker, Option.bind_eq_some_iff] at read
    rcases read with ⟨digits, joined, read⟩
    rcases Option.map_eq_some_iff.mp read with ⟨number, numbered, rfl⟩
    rcases joins_map_toAscii_iff.mp (joins_of_separatedDigits? joined) with ⟨kept, joins, rfl⟩
    rw [isDigit_toAscii] at joins
    rw [number?_map_toAscii] at numbered
    rcases exists_lead (rest.rdropWhile isPadding) with ⟨lead, divided, isLead⟩
    refine ⟨number, rfl, marker, lead, _, rest.rtakeWhile isPadding, kept, ?_, isMarker, isLead,
      joins, fun character inside => List.mem_rtakeWhile_imp inside, numbered⟩
    rw [← divided, List.rdropWhile_append_rtakeWhile]
  · rintro ⟨number, rfl, marker, lead, body, blanks, digits, rfl, isMarker, isLead, joins, padded,
      numbered⟩
    refine ⟨marker, _, rfl, isMarker, ?_⟩
    have joined : separatedDigits? Hex.isDigit (body.map toAscii) = some (digits.map toAscii) := by
      rw [separatedDigits?_eq_some_iff (by decide), joins_map_toAscii_iff, isDigit_toAscii]
      exact ⟨digits, joins, rfl⟩
    rw [hexInteger?_cons isMarker, rdropWhile_body joins padded, withoutLead_body joins isLead,
      joined, Option.bind_some, number?_map_toAscii, numbered]
    rfl

theorem toInt_eq_ok_iff {text : String} {value : Int} :
    toInt (.text text) = .ok value ↔
      ∃ number : Nat, value = number ∧ IsRead text.toList number := by
  rw [← ofText?_eq_some_iff, toInt]
  split <;> simp [*, Outcome.fault]

/-- A text that is not read as a number is refused. -/
theorem eq_invalid_of_toInt {text : String} {failure : Failure}
    (failed : toInt (.text text) = .error failure) : failure = .fault (invalid (.text text)) := by
  rw [toInt] at failed
  split at failed
  · cases failed
  · exact (Except.error.inj failed).symm

theorem isDigit_of_isAlphanum (alphanumeric : character.isAlphanum = true) :
    isDigit character = Hex.isDigit character := by
  rw [← isDigit_toAscii, Function.comp_apply, toAscii_of_isAlphanum alphanumeric]

theorem map_toAscii_of_isAlphanum
    (alphanumeric : ∀ character ∈ digits, character.isAlphanum = true) :
    digits.map toAscii = digits :=
  (List.map_congr_left fun character inside =>
    toAscii_of_isAlphanum (alphanumeric character inside)).trans (List.map_id digits)

/-- The texts of hexadecimal digits are those that are read and have no other characters than
letters and digits of ASCII. -/
theorem isHexadecimal_iff : IsHexadecimal text number ↔
    IsRead text number ∧ ∀ character ∈ text, character.isAlphanum = true := by
  constructor
  · rintro ⟨marker, digits, rfl, isMarker, nonempty, numbered⟩
    have hexadecimal := Hex.isDigit_of_number? numbered
    have alphanumeric : ∀ character ∈ digits, character.isAlphanum = true :=
      fun character inside => Hex.isAlphanum_of_isDigit (hexadecimal character inside)
    have joins : Joins isDigit digits digits := joins_self nonempty fun character inside => by
      rw [isDigit_of_isAlphanum (alphanumeric character inside)]
      exact hexadecimal character inside
    have read : number? digits = some number := by
      rw [← number?_map_toAscii, map_toAscii_of_isAlphanum alphanumeric, numbered]
    refine ⟨⟨marker, [], digits, [], digits, by simp, isMarker, Or.inl rfl, joins, nofun, read⟩, ?_⟩
    rw [List.forall_mem_cons, List.forall_mem_cons]
    exact ⟨by decide, by rcases isMarker with rfl | rfl <;> decide, alphanumeric⟩
  · rintro ⟨⟨marker, lead, body, blanks, digits, rfl, isMarker, isLead, joins, padded, numbered⟩,
      alphanumeric⟩
    simp only [List.forall_mem_cons, List.forall_mem_append] at alphanumeric
    rcases alphanumeric with ⟨_, _, ⟨leading, inBody⟩, following⟩
    have noLead : lead = [] := isLead.resolve_right fun separator =>
      absurd (leading '_' (by simp [separator])) (by decide)
    have noBlanks : blanks = [] := List.eq_nil_iff_forall_not_mem.mpr fun blank inside => by
      have visible := isVisible_of_isAlphanum (following blank inside)
      have padding := padded blank inside
      simp [isPadding, visible.not_asciiBlank, visible.not_blank] at padding
    have unseparated : '_' ∉ body := fun inside => absurd (inBody '_' inside) (by decide)
    have same := joins.eq_of_not_mem unseparated
    subst noLead noBlanks same
    refine ⟨marker, digits, by simp, isMarker, ?_, ?_⟩
    · rcases joins.exists_first with ⟨first, rest, rfl, _⟩
      exact List.cons_ne_nil first rest
    · rw [← map_toAscii_of_isAlphanum inBody, number?_map_toAscii, numbered]

theorem isCanonicalDigits_cons_of_ne {first : Char} (other : first ≠ '0') :
    isCanonicalDigits (first :: rest) = (first :: rest).all Hex.isDigit := by
  rw [isCanonicalDigits]
  · rw [List.all_cons, bne_iff_ne.mpr other, Bool.true_and]
  · simpa using fun same => absurd same other

/-- Digits that are recognised are those of a number: zero, or one with another first digit. -/
theorem exists_number_of_isCanonicalDigits (canonical : isCanonicalDigits digits = true) :
    ∃ number, digits.map Char.toLower = Nat.toDigits 16 number := by
  cases digits with
  | nil => cases canonical
  | cons first rest =>
      by_cases zero : first = '0'
      · subst zero
        have only : rest = [] := by
          cases rest with
          | nil => rfl
          | cons second rest => simp [isCanonicalDigits] at canonical
        exact ⟨0, by rw [only]; rfl⟩
      · rw [isCanonicalDigits_cons_of_ne zero, List.all_eq_true] at canonical
        rcases exists_toDigits_eq (by decide)
          (fun character inside => Hex.exists_value_of_isDigit (canonical character inside))
          (mt Hex.eq_zero_of_value? zero) with ⟨values, _, written⟩
        exact ⟨_, written.symm⟩

theorem isDigit_of_toDigits (lower : digits.map Char.toLower = Nat.toDigits 16 number) :
    ∀ character ∈ digits, Hex.isDigit character = true := by
  intro character inside
  have written : character.toLower ∈ Nat.toDigits 16 number := lower ▸ List.mem_map_of_mem inside
  rcases Hex.digit_of_mem_toDigits written with ⟨value, small, same⟩
  rw [Hex.isDigit, ← Hex.value?_toLower, same, (Hex.value?_digitChar small).1, Option.isSome_some]

/-- The recognised digits are those of the numbers, in any case. -/
theorem isCanonicalDigits_iff : isCanonicalDigits digits = true ↔
    ∃ number, digits.map Char.toLower = Nat.toDigits 16 number := by
  refine ⟨exists_number_of_isCanonicalDigits, ?_⟩
  rintro ⟨number, lower⟩
  cases digits with
  | nil => exact absurd lower.symm Nat.toDigits_ne_nil
  | cons first rest =>
      by_cases zero : first = '0'
      · subst zero
        have none : number = 0 := by
          by_contra some
          exact head?_toDigits_ne_zero (by decide : 1 < 16) (Nat.pos_of_ne_zero some)
            (lower ▸ rfl)
        subst none
        rw [List.map_cons] at lower
        have only : rest = [] := List.map_eq_nil_iff.mp (List.cons.inj lower).2
        rw [only]
        rfl
      · rw [isCanonicalDigits_cons_of_ne zero]
        exact List.all_eq_true.mpr (isDigit_of_toDigits lower)

theorem isQuantity_iff : (∃ number, IsQuantity text number) ↔
    ∃ digits, text = '0' :: 'x' :: digits ∧ isCanonicalDigits digits = true := by
  constructor
  · rintro ⟨number, digits, rfl, written⟩
    refine ⟨digits, rfl, isCanonicalDigits_iff.mpr ⟨number, ?_⟩⟩
    rw [ofNat, String.toList_ofList] at written
    simpa using written
  · rintro ⟨digits, rfl, canonical⟩
    rcases isCanonicalDigits_iff.mp canonical with ⟨number, lower⟩
    exact ⟨number, digits, rfl, by rw [ofNat, String.toList_ofList, lower]⟩

/-- What is recognised is a quantity, or a quantity with a line break behind it. -/
theorem isCanonical_iff : isCanonical text = true ↔
    ∃ start number, (text = start ∨ text = start ++ ['\n']) ∧ IsQuantity start number := by
  have byStart : (∃ start number, (text = start ∨ text = start ++ ['\n']) ∧
      IsQuantity start number) ↔ ∃ digits, (text = '0' :: 'x' :: digits ∨
        text = '0' :: 'x' :: (digits ++ ['\n'])) ∧ isCanonicalDigits digits = true := by
    constructor
    · rintro ⟨start, number, ends, quantity⟩
      rcases isQuantity_iff.mp ⟨number, quantity⟩ with ⟨digits, rfl, canonical⟩
      exact ⟨digits, ends, canonical⟩
    · rintro ⟨digits, ends, canonical⟩
      rcases isQuantity_iff.mpr ⟨digits, rfl, canonical⟩ with ⟨number, quantity⟩
      exact ⟨_, number, ends, quantity⟩
  rw [byStart]
  unfold isCanonical
  split
  · next digits =>
      rw [Bool.or_eq_true, Bool.and_eq_true, beq_iff_eq]
      constructor
      · rintro (canonical | ⟨broken, canonical⟩)
        · exact ⟨digits, Or.inl rfl, canonical⟩
        · refine ⟨digits.dropLast, Or.inr ?_, canonical⟩
          rw [List.dropLast_append_getLast? '\n' broken]
      · rintro ⟨others, same | same, canonical⟩
        · simp only [List.cons.injEq, true_and] at same
          exact Or.inl (same ▸ canonical)
        · simp only [List.cons.injEq, true_and] at same
          rw [same, List.getLast?_concat, List.dropLast_concat]
          exact Or.inr ⟨rfl, canonical⟩
  · next unmarked =>
      constructor
      · nofun
      · rintro ⟨digits, rfl | rfl, _⟩
        · exact absurd rfl (unmarked digits)
        · exact absurd rfl (unmarked (digits ++ ['\n']))

theorem isHexadecimal_of_isQuantity (quantity : IsQuantity text number) :
    IsHexadecimal text number := by
  rcases quantity with ⟨digits, rfl, written⟩
  rw [ofNat, String.toList_ofList] at written
  have lower : digits.map Char.toLower = Nat.toDigits 16 number := by simpa using written
  refine ⟨'x', digits, rfl, Or.inl rfl, ?_, ?_⟩
  · rintro rfl
    exact absurd lower.symm Nat.toDigits_ne_nil
  · rw [← Hex.number?_map_toLower, lower, Hex.number?_toDigits]

/-- A quantity is read as its number also with a line break behind it. -/
theorem isRead_of_isQuantity_lineBreak (quantity : IsQuantity text number) :
    IsRead (text ++ ['\n']) number := by
  rcases (isHexadecimal_iff.mp (isHexadecimal_of_isQuantity quantity)).1 with
    ⟨marker, lead, body, blanks, digits, rfl, isMarker, isLead, joins, padded, numbered⟩
  refine ⟨marker, lead, body, blanks ++ ['\n'], digits, by simp, isMarker, isLead, joins, ?_,
    numbered⟩
  rw [List.forall_mem_append, List.forall_mem_singleton]
  exact ⟨padded, by decide⟩

theorem isExact_iff_not_isLoose {text : String} : IsExact text ↔ ¬IsLoose text.toList := by
  constructor
  · rintro exact ⟨⟨number, read⟩, character, inside, other⟩
    rcases (exact.read number).mp (toInt_eq_ok_iff.mpr ⟨number, rfl, read⟩) with
      ⟨value, same, hexadecimal⟩
    rw [(isHexadecimal_iff.mp hexadecimal).2 character inside] at other
    cases other
  · intro strict
    have alphanumeric : ∀ {number}, IsRead text.toList number →
        ∀ character ∈ text.toList, character.isAlphanum = true := by
      intro number read character inside
      by_contra other
      exact strict ⟨⟨number, read⟩, character, inside, Bool.eq_false_iff.mpr other⟩
    constructor
    case recognised =>
      rw [isCanonical_iff]
      constructor
      · rintro ⟨start, number, same | broken, quantity⟩
        · exact ⟨number, same ▸ quantity⟩
        · have read := isRead_of_isQuantity_lineBreak quantity
          rw [← broken] at read
          exact absurd (alphanumeric read '\n' (by simp [broken])) (by decide)
      · rintro ⟨number, quantity⟩
        exact ⟨_, number, Or.inl rfl, quantity⟩
    case read =>
      intro number
      rw [toInt_eq_ok_iff]
      constructor
      · rintro ⟨value, rfl, read⟩
        exact ⟨value, rfl, isHexadecimal_iff.mpr ⟨read, alphanumeric read⟩⟩
      · rintro ⟨value, rfl, hexadecimal⟩
        exact ⟨value, rfl, (isHexadecimal_iff.mp hexadecimal).1⟩
    case refused =>
      intro failure failed
      exact ⟨eq_invalid_of_toInt failed, rfl⟩

theorem isQuantity_ofNat (number : Nat) : IsQuantity (ofNat number).toList number := by
  refine ⟨Nat.toDigits 16 number, by rw [ofNat, String.toList_ofList], ?_⟩
  have lower : (Nat.toDigits 16 number).map Char.toLower = Nat.toDigits 16 number := by
    refine (List.map_congr_left fun character inside => ?_).trans (List.map_id _)
    rcases Hex.digit_of_mem_toDigits inside with ⟨value, small, rfl⟩
    exact (Hex.toLower_of_value? (Hex.value?_digitChar small).1).2
  rw [lower, ofNat, String.toList_ofList]

theorem ofValue_natCast (number : Nat) : ofValue (.int number) = .ok (ofNat number) := by
  have notNegative : ¬(number : Int) < 0 := by omega
  rw [ofValue, if_neg notNegative, Int.toNat_natCast]

/-- The recogniser and the reader take a text exactly if they are meant to, unless it is read
although not all of its characters are letters and digits of ASCII. What is read after all are the
digits of any script with single underscores and with blanks at the end, and what is recognised a
quantity with a line break. The quantity of every number is recognised and read as that number. -/
theorem exact_unless_loose (text : String) :
    (IsExact text ↔ ¬IsLoose text.toList) ∧
    (∀ number, toInt (.text text) = .ok number ↔
      ∃ value : Nat, number = value ∧ IsRead text.toList value) ∧
    (isCanonical text.toList = true ↔ ∃ start number,
      (text.toList = start ∨ text.toList = start ++ ['\n']) ∧ IsQuantity start number) ∧
    (∀ number : Nat, ofValue (.int number) = .ok (ofNat number) ∧
      toInt (.text (ofNat number)) = .ok number ∧ isCanonical (ofNat number).toList = true) ∧
    ∀ codePoints, toInt (.brokenText codePoints) =
      Outcome.fault (invalid (.brokenText codePoints)) := by
  refine ⟨isExact_iff_not_isLoose, fun _ => toInt_eq_ok_iff, isCanonical_iff, fun number => ?_,
    fun _ => rfl⟩
  exact ⟨ofValue_natCast number, toInt_ofNat number,
    isCanonical_iff.mpr ⟨_, number, Or.inl rfl, isQuantity_ofNat number⟩⟩

/-- A quantity with a line break behind it is recognised, and is the quantity of no number. -/
theorem not_isExact_lineBreak : ¬IsExact "0x1\n" := by
  intro exact
  have recognised : isCanonical "0x1\n".toList = true := by decide
  rcases isQuantity_iff.mp (exact.recognised.mp recognised) with ⟨digits, same, canonical⟩
  have known : digits = ['1', '\n'] := by simpa using same.symm
  rw [known] at canonical
  exact absurd canonical (by decide)

end Quantity

end ContractClient
