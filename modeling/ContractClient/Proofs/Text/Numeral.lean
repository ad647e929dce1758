import ContractClient.Proofs.Bytes
import ContractClient.Proofs.Text.Integer
import Mathlib.Data.List.DropRight

/-!
# Numerals

Where integers are read, characters behind ASCII stand for ASCII ones: blanks for the space, digits
of every script for those of ASCII, and all others for nothing that belongs to an integer
(`Text.StandsFor`). Single underscores may join the digits (`Text.Joins`). What was read is written
again with the same digits unless the first one is zero (`Text.toDigits_ofValues`).
-/

namespace ContractClient.Text

section Characters

variable {character : Char}

/-- The character that a character is read as where it is part of an integer. -/
def toAscii (character : Char) : Char :=
  if character.toNat < 0x7f then character
  else if isBlank character then ' '
  else match digitValue? character with
    | some value => Char.ofNat ('0'.toNat + value)
    | none => character

theorem foldDigits_eq_map (characters : List Char) :
    foldDigits characters = characters.map toAscii :=
  rfl

/-- What a character is read as: itself in ASCII, and its meaning behind it. -/
inductive StandsFor (character : Char) : Char → Prop where
  | itself (ascii : character.toNat < 0x7f) : StandsFor character character
  | blank (behind : 0x7f ≤ character.toNat) (blank : isBlank character = true) :
      StandsFor character ' '
  | digit {value : Nat} (behind : 0x7f ≤ character.toNat)
      (digit : digitValue? character = some value) :
      StandsFor character (Char.ofNat ('0'.toNat + value))
  | nothing (behind : 0x7f ≤ character.toNat) (notBlank : isBlank character = false)
      (notDigit : digitValue? character = none) : StandsFor character character

theorem standsFor_toAscii (character : Char) : StandsFor character (toAscii character) := by
  unfold toAscii
  split
  · next ascii => exact .itself ascii
  · next behind =>
      rw [Nat.not_lt] at behind
      split
      · next blank => exact .blank behind blank
      · next notBlank =>
          split
          · next value found => exact .digit behind found
          · next missing => exact .nothing behind (Bool.eq_false_iff.mpr notBlank) missing

theorem forall_of_ascii {motive : Char → Prop}
    (all : ∀ code : Fin 0x7f, motive (Char.ofNat code)) (ascii : character.toNat < 0x7f) :
    motive character := by
  have known := all ⟨character.toNat, ascii⟩
  rwa [Char.ofNat_toNat] at known

theorem isDigit_of_digitValue? {value : Nat} (found : digitValue? character = some value) :
    isDigit character = true := by
  rw [isDigit, found, Option.isSome_some]

theorem digitValue?_lt {value : Nat} (found : digitValue? character = some value) :
    value < 10 := by
  rcases exists_zero_of_isDigit (isDigit_of_digitValue? found) with ⟨first, _, low, high, known⟩
  rw [found, Option.some.injEq] at known
  omega

/-- No character is both a digit and a blank. -/
theorem isBlank_of_isDigit (digit : isDigit character = true) : isBlank character = false := by
  rcases exists_zero_of_isDigit digit with ⟨first, listed, low, high, _⟩
  have apart := digitZeros_apart first listed
  simp only [isBlank, Bool.or_eq_false_iff, Bool.and_eq_false_imp, decide_eq_true_eq,
    decide_eq_false_iff_not, beq_eq_false_iff_ne]
  omega

theorem isDigit_of_isBlank (blank : isBlank character = true) : isDigit character = false := by
  rw [Bool.eq_false_iff]
  intro digit
  rw [isBlank_of_isDigit digit] at blank
  cases blank

theorem digitValue?_of_isBlank (blank : isBlank character = true) :
    digitValue? character = none := by
  simpa [isDigit] using isDigit_of_isBlank blank

/-- In ASCII only the ten digits have a value. -/
theorem digitValue?_of_ascii (ascii : character.toNat < 0x7f) : digitValue? character =
    if character.isDigit then some (character.toNat - '0'.toNat) else none :=
  forall_of_ascii (motive := fun character => digitValue? character =
    if character.isDigit then some (character.toNat - '0'.toNat) else none) (by decide) ascii

theorem isDigit_of_ascii (ascii : character.toNat < 0x7f) :
    isDigit character = character.isDigit := by
  rw [isDigit, digitValue?_of_ascii ascii]
  split <;> simp [*]

/-- A digit of any script is read as the digit of ASCII with the same value. -/
theorem toNat_toAscii {value : Nat} (found : digitValue? character = some value) :
    (toAscii character).toNat - '0'.toNat = value := by
  have meaning := standsFor_toAscii character
  generalize toAscii character = ascii at meaning
  cases meaning with
  | itself inAscii =>
      rw [digitValue?_of_ascii inAscii, Option.ite_none_right_eq_some, Option.some.injEq] at found
      exact found.2
  | blank behind blank =>
      rw [digitValue?_of_isBlank blank] at found
      cases found
  | @digit other behind same =>
      have all : ∀ other : Fin 10,
          (Char.ofNat ('0'.toNat + other)).toNat - '0'.toNat = other := by
        decide
      rw [same, Option.some.injEq] at found
      rw [← found]
      exact all ⟨other, digitValue?_lt same⟩
  | nothing behind notBlank notDigit =>
      rw [notDigit] at found
      cases found

end Characters

section Blanks

variable {character : Char} {characters : List Char}

/-- Whether a character may stand around an integer. The blanks that ASCII has for the ends of
records may not, although they separate words. -/
def isPadding (character : Char) : Bool :=
  isAsciiBlank character || (0x7f ≤ character.toNat && isBlank character)

theorem isAsciiBlank_toAscii (character : Char) :
    isAsciiBlank (toAscii character) = isPadding character := by
  have visible : ∀ {other : Char}, 0x7f ≤ other.toNat → isAsciiBlank other = false := by
    intro other behind
    have notSpace : other ≠ ' ' := by
      rintro rfl
      exact absurd behind (by decide)
    have notBreak : ¬other ≤ '\r' := by
      intro below
      have bound : other.toNat ≤ 0xd := below
      omega
    simp [isAsciiBlank, notSpace, notBreak]
  have meaning := standsFor_toAscii character
  generalize toAscii character = ascii at meaning
  cases meaning with
  | itself inAscii =>
      have notBehind : ¬0x7f ≤ character.toNat := by omega
      simp [isPadding, notBehind]
  | blank behind blank =>
      simp only [isPadding, behind, blank, decide_true, Bool.and_self, Bool.or_true]
      rfl
  | @digit value behind found =>
      have notBlank : ∀ value : Fin 10, isAsciiBlank (Char.ofNat ('0'.toNat + value)) = false := by
        decide
      have solid := isBlank_of_isDigit (isDigit_of_digitValue? found)
      simp only [isPadding, visible behind, solid, Bool.and_false, Bool.or_self]
      exact notBlank ⟨value, digitValue?_lt found⟩
  | nothing behind notBlank notDigit => simp [isPadding, visible behind, notBlank]

theorem rdropWhile_cons_of_neg {drops : Char → Bool} (kept : drops character = false) :
    (character :: characters).rdropWhile drops = character :: characters.rdropWhile drops := by
  rw [List.rdropWhile, List.rdropWhile, List.reverse_cons, List.dropWhile_append]
  split
  · next none =>
      rw [List.isEmpty_iff.mp none, List.dropWhile_cons_of_neg (by simp [kept])]
      rfl
  · next some => rw [List.reverse_append, List.reverse_singleton, List.singleton_append]

theorem rdropWhile_map {drops : Char → Bool} {convert : Char → Char} :
    (characters.map convert).rdropWhile drops =
      (characters.rdropWhile (drops ∘ convert)).map convert := by
  rw [List.rdropWhile, List.rdropWhile, ← List.map_reverse, List.dropWhile_map, List.map_reverse]

/-- What does not start with a blank loses only the blanks at its end. -/
theorem stripAscii_foldDigits_cons (solid : isPadding character = false) :
    stripAscii (foldDigits (character :: characters)) =
      ((character :: characters).rdropWhile isPadding).map toAscii := by
  have same : isAsciiBlank ∘ toAscii = isPadding := funext isAsciiBlank_toAscii
  have first : (foldDigits (character :: characters)).dropWhile isAsciiBlank =
      foldDigits (character :: characters) := by
    rw [foldDigits_eq_map, List.map_cons]
    exact List.dropWhile_cons_of_neg (by simp [isAsciiBlank_toAscii, solid])
  rw [stripAscii, first, foldDigits_eq_map, ← same, ← rdropWhile_map]
  rfl

end Blanks

/-- A text of digits between which single underscores may stand, and the digits alone. -/
inductive Joins (isDigit : Char → Bool) : List Char → List Char → Prop where
  | last {character : Char} (digit : isDigit character = true) :
      Joins isDigit [character] [character]
  | next {character : Char} {rest digits : List Char} (digit : isDigit character = true)
      (others : Joins isDigit rest digits) :
      Joins isDigit (character :: rest) (character :: digits)
  | separated {character : Char} {rest digits : List Char} (digit : isDigit character = true)
      (others : Joins isDigit rest digits) :
      Joins isDigit (character :: '_' :: rest) (character :: digits)

section Joined

variable {isDigit : Char → Bool} {characters digits : List Char}

theorem Joins.exists_first (joins : Joins isDigit characters digits) :
    ∃ first rest, characters = first :: rest ∧ isDigit first = true := by
  cases joins with
  | last digit => exact ⟨_, _, rfl, digit⟩
  | next digit others => exact ⟨_, _, rfl, digit⟩
  | separated digit others => exact ⟨_, _, rfl, digit⟩

theorem Joins.exists_last (joins : Joins isDigit characters digits) :
    ∃ start last, characters = start ++ [last] ∧ isDigit last = true := by
  induction joins with
  | @last character digit => exact ⟨[], character, rfl, digit⟩
  | @next character rest digits digit others ih =>
      rcases ih with ⟨start, last, rfl, lastDigit⟩
      exact ⟨character :: start, last, rfl, lastDigit⟩
  | @separated character rest digits digit others ih =>
      rcases ih with ⟨start, last, rfl, lastDigit⟩
      exact ⟨character :: '_' :: start, last, rfl, lastDigit⟩

/-- Digits that nothing separates are a text of digits. -/
theorem joins_self (nonempty : characters ≠ [])
    (allDigits : ∀ character ∈ characters, isDigit character = true) :
    Joins isDigit characters characters := by
  induction characters with
  | nil => exact absurd rfl nonempty
  | cons first rest ih =>
      rw [List.forall_mem_cons] at allDigits
      cases rest with
      | nil => exact .last allDigits.1
      | cons second rest => exact .next allDigits.1 (ih (by simp) allDigits.2)

theorem Joins.eq_of_not_mem (joins : Joins isDigit characters digits)
    (unseparated : '_' ∉ characters) : digits = characters := by
  induction joins with
  | last digit => rfl
  | next digit others ih => rw [ih (fun inside => unseparated (List.mem_cons_of_mem _ inside))]
  | separated digit others ih => simp at unseparated

theorem joins_of_separatedDigits? (read : separatedDigits? isDigit characters = some digits) :
    Joins isDigit characters digits := by
  induction characters using separatedDigits?.induct isDigit generalizing digits with
  | case1 => cases read
  | case2 character digit =>
      simp only [separatedDigits?, digit, if_true, Option.some.injEq] at read
      exact read ▸ .last digit
  | case3 character notDigit => simp [separatedDigits?, notDigit] at read
  | case4 character rest digit ih =>
      simp only [separatedDigits?, digit, if_true, Option.map_eq_some_iff] at read
      rcases read with ⟨others, readRest, rfl⟩
      exact .separated digit (ih readRest)
  | case5 character rest notDigit => simp [separatedDigits?, notDigit] at read
  | case6 character rest notLast noSeparator digit ih =>
      simp only [separatedDigits?, digit, if_true, Option.map_eq_some_iff] at read
      rcases read with ⟨others, readRest, rfl⟩
      exact .next digit (ih readRest)
  | case7 character rest notLast noSeparator notDigit =>
      simp [separatedDigits?, notDigit] at read

theorem separatedDigits?_eq_some_iff (separator : isDigit '_' = false) :
    separatedDigits? isDigit characters = some digits ↔ Joins isDigit characters digits := by
  refine ⟨joins_of_separatedDigits?, fun joins => ?_⟩
  induction joins with
  | last digit => simp [separatedDigits?, digit]
  | @next character rest digits digit others ih =>
      rcases others.exists_first with ⟨first, after, rfl, firstDigit⟩
      have notSeparator : first ≠ '_' := by
        rintro rfl
        rw [separator] at firstDigit
        cases firstDigit
      simp [separatedDigits?, digit, notSeparator, ih]
  | separated digit others ih => simp [separatedDigits?, digit, ih]

theorem toAscii_eq_separator_iff {character : Char} :
    toAscii character = '_' ↔ character = '_' := by
  constructor
  · intro same
    generalize read : toAscii character = ascii at same
    have meaning := standsFor_toAscii character
    rw [read] at meaning
    cases meaning with
    | itself => exact same
    | blank => exact absurd same (by decide)
    | @digit value behind found =>
        have none : ∀ value : Fin 10, Char.ofNat ('0'.toNat + value) ≠ '_' := by decide
        exact absurd same (none ⟨value, digitValue?_lt found⟩)
    | nothing => exact same
  · rintro rfl
    rfl

/-- Underscores join the characters that are read just as the characters that they are read as. -/
theorem joins_map_toAscii_iff : Joins isDigit (characters.map toAscii) digits ↔
    ∃ kept, Joins (isDigit ∘ toAscii) characters kept ∧ digits = kept.map toAscii := by
  constructor
  · intro joins
    generalize folded : characters.map toAscii = text at joins
    induction joins generalizing characters with
    | last digit =>
        rcases List.map_eq_singleton_iff.mp folded with ⟨character, rfl, rfl⟩
        exact ⟨[character], .last digit, rfl⟩
    | next digit others ih =>
        rcases List.map_eq_cons_iff.mp folded with ⟨character, rest, rfl, rfl, tail⟩
        rcases ih tail with ⟨kept, joins, rfl⟩
        exact ⟨character :: kept, .next digit joins, rfl⟩
    | separated digit others ih =>
        rcases List.map_eq_cons_iff.mp folded with ⟨character, rest, rfl, rfl, tail⟩
        rcases List.map_eq_cons_iff.mp tail with ⟨separator, after, rfl, isSeparator, tail⟩
        rcases ih tail with ⟨kept, joins, rfl⟩
        rw [toAscii_eq_separator_iff] at isSeparator
        exact ⟨character :: kept, isSeparator ▸ .separated digit joins, rfl⟩
  · rintro ⟨kept, joins, rfl⟩
    induction joins with
    | last digit => exact .last digit
    | next digit others ih => exact .next digit ih
    | separated digit others ih => exact .separated digit ih

end Joined

section Digits

variable {base number first : Nat} {values : List Nat}

/-- The number that digits write, the most significant one first. -/
def ofValues (base : Nat) (values : List Nat) : Nat :=
  values.foldl (fun total value => total * base + value) 0

theorem ofValues_append_singleton (value : Nat) :
    ofValues base (values ++ [value]) = ofValues base values * base + value := by
  rw [ofValues, List.foldl_append]
  rfl

/-- A number that starts with another digit than zero is positive. -/
theorem ofValues_pos (large : 1 < base) (positive : 0 < first) :
    0 < ofValues base (first :: values) := by
  induction values using List.reverseRecOn with
  | nil => simpa [ofValues] using positive
  | append_singleton values value ih =>
      rw [← List.cons_append, ofValues_append_singleton]
      exact Nat.add_pos_left (Nat.mul_pos ih (by omega)) _

/-- A number has the digits that it was read from, if the first one is not zero. -/
theorem toDigits_ofValues (large : 1 < base) (positive : 0 < first)
    (small : ∀ value ∈ first :: values, value < base) :
    Nat.toDigits base (ofValues base (first :: values)) =
      (first :: values).map Nat.digitChar := by
  induction values using List.reverseRecOn with
  | nil =>
      have only : ofValues base [first] = first := by simp [ofValues]
      rw [only, Nat.toDigits_of_lt_base (small first List.mem_cons_self)]
      rfl
  | append_singleton values value ih =>
      rw [← List.cons_append, List.forall_mem_append, List.forall_mem_singleton] at small
      rw [← List.cons_append, ofValues_append_singleton, List.map_append, ← ih small.1,
        Nat.mul_comm, ← Nat.toDigits_append_toDigits large (ofValues_pos large positive) small.2,
        Nat.toDigits_of_lt_base small.2]
      rfl

/-- Every digit has a value below the base, and is written as the digit of that value. -/
theorem exists_values {value? : Char → Option Nat} {convert : Char → Char} {digits : List Char}
    (each : ∀ character ∈ digits, ∃ value < base, value? character = some value ∧
      Nat.digitChar value = convert character) :
    ∃ values : List Nat, digits.map value? = values.map some ∧ (∀ value ∈ values, value < base) ∧
      values.map Nat.digitChar = digits.map convert := by
  induction digits with
  | nil => exact ⟨[], rfl, nofun, rfl⟩
  | cons first rest ih =>
      rw [List.forall_mem_cons] at each
      rcases each.1 with ⟨value, small, found, written⟩
      rcases ih each.2 with ⟨values, read, allSmall, same⟩
      exact ⟨value :: values, by simp [found, read], List.forall_mem_cons.mpr ⟨small, allSmall⟩,
        by simp [written, same]⟩

/-- Digits that do not begin with zero are the digits of the number that they write. -/
theorem exists_toDigits_eq {value? : Char → Option Nat} {convert : Char → Char} {leading : Char}
    {rest : List Char} (large : 1 < base)
    (each : ∀ character ∈ leading :: rest, ∃ value < base, value? character = some value ∧
      Nat.digitChar value = convert character) (notZero : value? leading ≠ some 0) :
    ∃ values : List Nat, (leading :: rest).map value? = values.map some ∧
      Nat.toDigits base (ofValues base values) = (leading :: rest).map convert := by
  rcases exists_values each with ⟨values, read, small, same⟩
  cases values with
  | nil => cases read
  | cons value values =>
      have first : value? leading = some value := (List.cons.inj read).1
      have positive : 0 < value := by
        rw [Nat.pos_iff_ne_zero]
        rintro rfl
        exact notZero first
      exact ⟨value :: values, read, by rw [toDigits_ofValues large positive small, same]⟩

theorem head?_toDigits_ne_zero (large : 1 < base) (positive : 0 < number) :
    (Nat.toDigits base number).head? ≠ some '0' := by
  induction number using Nat.strongRecOn with
  | ind number ih =>
      by_cases small : number < base
      · rw [Nat.toDigits_of_lt_base small]
        simpa [Nat.digitChar_eq_zero] using Nat.ne_of_gt positive
      · have leading := ih (number / base) (Nat.div_lt_self positive large)
          (Nat.div_pos (by omega) (by omega))
        rw [Nat.toDigits_of_base_le large (by omega),
          List.head?_append_of_ne_nil _ Nat.toDigits_ne_nil]
        exact leading

end Digits

end ContractClient.Text
