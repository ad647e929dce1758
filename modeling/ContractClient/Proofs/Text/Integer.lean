import ContractClient.Wire.Quantity

/-!
# Laws of integers in texts

An integer is read back from its digits: in base ten, as long as they are not more digits than are
converted (`Text.integer?_toDigits`), and in base sixteen after the marker of a quantity
(`Quantity.toInt_ofNat`).
-/

namespace ContractClient

namespace Text

section Characters

variable {character : Char} {characters : List Char}

/-- ASCII shows a character by a mark of its own. -/
def IsVisible (character : Char) : Prop :=
  0x21 ≤ character.toNat ∧ character.toNat < 0x7f

instance : Decidable (IsVisible character) :=
  inferInstanceAs (Decidable (0x21 ≤ character.toNat ∧ character.toNat < 0x7f))

theorem isVisible_of_all
    (visible : (characters.all fun character => decide (IsVisible character)) = true) :
    ∀ character ∈ characters, IsVisible character :=
  fun character member => of_decide_eq_true (List.all_eq_true.mp visible character member)

theorem IsVisible.not_blank (visible : IsVisible character) : isBlank character = false := by
  rcases visible with ⟨above, below⟩
  simp only [isBlank, Bool.or_eq_false_iff, Bool.and_eq_false_imp, decide_eq_true_eq,
    decide_eq_false_iff_not, beq_eq_false_iff_ne]
  omega

theorem IsVisible.not_asciiBlank (visible : IsVisible character) :
    isAsciiBlank character = false := by
  have notSpace : character ≠ ' ' := by
    rintro rfl
    exact absurd visible.1 (by decide)
  have notBreak : ¬character ≤ '\r' := by
    intro below
    have bound : character.toNat ≤ 0xd := below
    have above := visible.1
    omega
  simp [isAsciiBlank, notSpace, notBreak]

theorem isVisible_of_isAlphanum (alphanumeric : character.isAlphanum = true) :
    IsVisible character := by
  have number : character.toNat = character.val.toNat := rfl
  delta Char.isAlphanum Char.isAlpha Char.isUpper Char.isLower Char.isDigit at alphanumeric
  simp only [Bool.or_eq_true, Bool.and_eq_true, decide_eq_true_eq, ge_iff_le,
    UInt32.le_iff_toNat_le, UInt32.reduceToNat, Char.reduceVal] at alphanumeric
  rw [IsVisible, number]
  omega

theorem dropWhile_of_forall {blank : Char → Bool}
    (solid : ∀ character ∈ characters, blank character = false) :
    characters.dropWhile blank = characters := by
  cases characters with
  | nil => rfl
  | cons first rest =>
      exact List.dropWhile_cons_of_neg (by simp [solid first List.mem_cons_self])

variable (visible : ∀ character ∈ characters, IsVisible character)

include visible

theorem strip_of_visible : strip characters = characters := by
  have solid : ∀ character ∈ characters, isBlank character = false :=
    fun character member => (visible character member).not_blank
  rw [strip, dropWhile_of_forall solid, stripRight, dropWhile_of_forall (by simpa using solid),
    List.reverse_reverse]

theorem stripAscii_of_visible : stripAscii characters = characters := by
  have solid : ∀ character ∈ characters, isAsciiBlank character = false :=
    fun character member => (visible character member).not_asciiBlank
  rw [stripAscii, dropWhile_of_forall solid, dropWhile_of_forall (by simpa using solid),
    List.reverse_reverse]

theorem foldDigits_of_visible : foldDigits characters = characters := by
  refine (List.map_congr_left fun character member => ?_).trans (List.map_id characters)
  exact if_pos (visible character member).2

end Characters

section Digits

variable {character : Char} {digits : List Char}

theorem isDigit_of_decimal (decimal : character.isDigit = true) : isDigit character = true := by
  have number : character.toNat = character.val.toNat := rfl
  simp only [Char.isDigit, Bool.and_eq_true, decide_eq_true_eq, ge_iff_le,
    UInt32.le_iff_toNat_le, UInt32.reduceToNat, Char.reduceVal] at decimal
  have inAscii : (0x30 ≤ character.toNat && character.toNat < 0x30 + 10) = true := by
    simp only [Bool.and_eq_true, decide_eq_true_eq]
    omega
  rw [isDigit, digitValue?, Option.isSome_map, List.find?_isSome]
  exact ⟨0x30, List.mem_cons_self, inAscii⟩

theorem separatedDigits?_of_forall {isDigit : Char → Bool} (nonempty : digits ≠ [])
    (separator : isDigit '_' = false)
    (allDigits : ∀ character ∈ digits, isDigit character = true) :
    separatedDigits? isDigit digits = some digits := by
  induction digits with
  | nil => exact absurd rfl nonempty
  | cons first rest ih =>
      rw [List.forall_mem_cons] at allDigits
      cases rest with
      | nil => simp [separatedDigits?, allDigits.1]
      | cons second rest =>
          have notSeparator : second ≠ '_' := by
            rintro rfl
            simp [separator] at allDigits
          have others := ih (by simp) allDigits.2
          simp [separatedDigits?, allDigits.1, others, notSeparator]

theorem splitSign_of_ne {first : Char} {rest : List Char} (notMinus : first ≠ '-')
    (notPlus : first ≠ '+') : splitSign (first :: rest) = (false, first :: rest) := by
  rw [splitSign]
  · simpa using notMinus
  · simpa using notPlus

/-- The digits of a script are those of ASCII, or behind ASCII and apart from all blanks. -/
theorem digitZeros_apart : ∀ first ∈ digitZeros, first = 0x30 ∨ 0xa0 < first ∧
    (first + 10 ≤ 0x1680 ∨ 0x1680 < first) ∧ (first + 10 ≤ 0x2000 ∨ 0x3000 < first) := by
  decide

theorem exists_zero_of_isDigit (digit : isDigit character = true) :
    ∃ first ∈ digitZeros, first ≤ character.toNat ∧ character.toNat < first + 10 ∧
      digitValue? character = some (character.toNat - first) := by
  rw [isDigit, Option.isSome_iff_exists] at digit
  rcases digit with ⟨value, found⟩
  have known := found
  rw [digitValue?, Option.map_eq_some_iff] at known
  rcases known with ⟨first, listed, rfl⟩
  have within := List.find?_some listed
  simp only [Bool.and_eq_true, decide_eq_true_eq] at within
  exact ⟨first, List.mem_of_find?_eq_some listed, within.1, within.2, found⟩

/-- The digits of every script become those of ASCII. -/
theorem isDigit_of_mem_foldDigits (allDigits : ∀ character ∈ digits, isDigit character = true) :
    ∀ character ∈ foldDigits digits, character.isDigit = true := by
  have decimal : ∀ value : Fin 10, (Char.ofNat ('0'.toNat + value)).isDigit = true := by decide
  intro folded member
  rw [foldDigits, List.mem_map] at member
  rcases member with ⟨character, inside, rfl⟩
  rcases exists_zero_of_isDigit (allDigits character inside) with ⟨first, listed, low, high, value⟩
  have apart := digitZeros_apart first listed
  split
  · next ascii =>
      have number : character.toNat = character.val.toNat := rfl
      simp only [Char.isDigit, Bool.and_eq_true, decide_eq_true_eq, ge_iff_le,
        UInt32.le_iff_toNat_le, UInt32.reduceToNat, Char.reduceVal]
      omega
  · next behind =>
      have notBlank : isBlank character = false := by
        simp only [isBlank, Bool.or_eq_false_iff, Bool.and_eq_false_imp, decide_eq_true_eq,
          decide_eq_false_iff_not, beq_eq_false_iff_ne]
        omega
      simp only [notBlank, Bool.false_eq_true, if_false, value]
      exact decimal ⟨character.toNat - first, by omega⟩

/-- A text of digits is an integer, unless it has too many of them. -/
theorem integer?_of_digits (nonempty : digits ≠ [])
    (allDigits : ∀ character ∈ digits, isDigit character = true) :
    integer? digits =
      if digitLimit < digits.length then none
      else some (((foldDigits digits).foldl
        (fun total digit => total * 10 + (digit.toNat - '0'.toNat)) 0 : Nat) : Int) := by
  have decimal := isDigit_of_mem_foldDigits allDigits
  have sameLength : (foldDigits digits).length = digits.length := by simp [foldDigits]
  have visible : ∀ character ∈ foldDigits digits, IsVisible character :=
    fun character member => isVisible_of_isAlphanum (by simp [Char.isAlphanum, decimal _ member])
  have unsigned : splitSign (foldDigits digits) = (false, foldDigits digits) := by
    cases folded : foldDigits digits with
    | nil => rfl
    | cons first rest =>
        have firstDecimal := decimal first (by simp [folded])
        refine splitSign_of_ne ?_ ?_ <;>
          (rintro rfl
           exact absurd firstDecimal (by decide))
  have folded : foldDigits digits ≠ [] := by simpa [foldDigits] using nonempty
  have read := separatedDigits?_of_forall folded (by decide) decimal
  rw [integer?, stripAscii_of_visible visible, unsigned]
  simp only [read, Option.bind_eq_bind, Option.bind_some, sameLength]
  split <;> rfl

theorem integer?_toDigits {number : Nat} (short : number < 10 ^ digitLimit) :
    integer? (Nat.toDigits 10 number) = some (number : Int) := by
  have decimal : ∀ character ∈ Nat.toDigits 10 number, character.isDigit = true :=
    fun character member => Nat.isDigit_of_mem_toDigits (by decide) (by decide) member
  have visible : ∀ character ∈ Nat.toDigits 10 number, IsVisible character :=
    fun character member => isVisible_of_isAlphanum (by simp [Char.isAlphanum, decimal _ member])
  have length : ¬digitLimit < (Nat.toDigits 10 number).length := by
    have bound := (Nat.length_toDigits_le_iff (b := 10) (by decide) (by decide)).mpr short
    omega
  have value : (Nat.toDigits 10 number).foldl
      (fun total digit => total * 10 + (digit.toNat - '0'.toNat)) 0 = number := by
    have commuted := Nat.ofDigitChars_toDigits (b := 10) (n := number) (by decide) (by decide)
    simpa only [Nat.ofDigitChars, Nat.mul_comm] using commuted
  have allDigits : ∀ character ∈ Nat.toDigits 10 number, isDigit character = true :=
    fun character member => isDigit_of_decimal (decimal character member)
  rw [integer?_of_digits Nat.toDigits_ne_nil allDigits, if_neg length,
    foldDigits_of_visible visible, value]

end Digits

end Text

namespace Hex

theorem digit_of_mem_toDigits {number : Nat} {character : Char}
    (member : character ∈ Nat.toDigits 16 number) :
    ∃ value < 16, character = Nat.digitChar value := by
  induction number using Nat.strongRecOn with
  | ind number ih =>
      by_cases small : number < 16
      · rw [Nat.toDigits_of_lt_base small, List.mem_singleton] at member
        exact ⟨number, small, member⟩
      · rw [Nat.toDigits_of_base_le (by decide) (by omega), List.mem_append] at member
        rcases member with earlier | last
        · exact ih (number / 16) (by omega) earlier
        · exact ⟨number % 16, Nat.mod_lt _ (by decide), List.mem_singleton.mp last⟩

theorem value?_digitChar {value : Nat} (small : value < 16) :
    value? (Nat.digitChar value) = some value ∧ Text.IsVisible (Nat.digitChar value) := by
  have allDigits : ∀ value : Fin 16, value? (Nat.digitChar value) = some value.val ∧
      Text.IsVisible (Nat.digitChar value) := by decide
  exact allDigits ⟨value, small⟩

theorem number?_toDigits (number : Nat) : number? (Nat.toDigits 16 number) = some number := by
  induction number using Nat.strongRecOn with
  | ind number ih =>
      by_cases small : number < 16
      · simp [Nat.toDigits_of_lt_base small, number?, (value?_digitChar small).1]
      · have earlier := ih (number / 16) (by omega)
        have last := (value?_digitChar (Nat.mod_lt number (by decide : 0 < 16))).1
        rw [number?] at earlier
        rw [Nat.toDigits_of_base_le (by decide) (by omega), number?, List.foldlM_append, earlier]
        simp [last]
        omega

end Hex

namespace Quantity

theorem toInt_ofNat (number : Nat) : toInt (.text (ofNat number)) = .ok number := by
  have visible : ∀ character ∈ '0' :: 'x' :: Nat.toDigits 16 number, Text.IsVisible character := by
    simp only [List.forall_mem_cons]
    refine ⟨by decide, by decide, fun character member => ?_⟩
    rcases Hex.digit_of_mem_toDigits member with ⟨value, small, rfl⟩
    exact (Hex.value?_digitChar small).2
  have hexadecimal : ∀ character ∈ Nat.toDigits 16 number, Hex.isDigit character = true := by
    intro character member
    rcases Hex.digit_of_mem_toDigits member with ⟨value, small, rfl⟩
    simp [Hex.isDigit, (Hex.value?_digitChar small).1]
  have read := Text.separatedDigits?_of_forall Nat.toDigits_ne_nil (by decide) hexadecimal
  have marked : Text.splitMarker ('0' :: 'x' :: Nat.toDigits 16 number) =
      Nat.toDigits 16 number := by
    cases digits : Nat.toDigits 16 number with
    | nil => rfl
    | cons first rest =>
        have notSeparator : first ≠ '_' := by
          rintro rfl
          exact absurd (hexadecimal '_' (by simp [digits])) (by decide)
        simp [Text.splitMarker, notSeparator]
  have unsigned : Text.splitSign ('0' :: 'x' :: Nat.toDigits 16 number) =
      (false, '0' :: 'x' :: Nat.toDigits 16 number) :=
    Text.splitSign_of_ne (by decide) (by decide)
  have parsed : Text.hexInteger? ('0' :: 'x' :: Nat.toDigits 16 number) = some (number : Int) := by
    rw [Text.hexInteger?, Text.foldDigits_of_visible visible, Text.stripAscii_of_visible visible,
      unsigned]
    simp only [marked, read, Option.bind_eq_bind, Option.bind_some, Hex.number?_toDigits]
    rfl
  have found : ofText? ('0' :: 'x' :: Nat.toDigits 16 number) = some (number : Int) := by
    cases digits : Nat.toDigits 16 number with
    | nil => exact absurd digits Nat.toDigits_ne_nil
    | cons first rest => simpa only [ofText?, digits] using parsed
  rw [toInt, ofNat, String.toList_ofList, found]

end Quantity

end ContractClient
