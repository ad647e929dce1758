import ContractClient.Proofs.Abi.Numerals
import ContractClient.Proofs.Text.Numeral

/-!
# Types are read as they are written

The canonical text of a type that is read is the text that it was read from, without the blanks and
with the width that a bare `uint` or `int` stands for (`AbiType.expanded`), up to the numerals.
These may have leading zeros and digits of any script, and the canonical text has the standard
numeral of the same number (`AbiType.spelling_of_ofText`).

So a text is kept (`AbiType.KeepsText`) exactly if no numeral in it is too long to be read and
all numerals are plain (`AbiType.keepsText_iff`).
-/

namespace ContractClient

namespace Text

section Runs

variable {inRun : Char → Bool} {convert : List Char → List Char} {run front rest : List Char}
  {character : Char}

/-- A text in which every longest run of characters of one kind is converted. The first argument is
what precedes the text in the first run. -/
def convertRuns (inRun : Char → Bool) (convert : List Char → List Char) :
    (run : List Char) → List Char → List Char
  | run, [] => convert run
  | run, character :: rest =>
    if inRun character then convertRuns inRun convert (run ++ [character]) rest
    else convert run ++ character :: convertRuns inRun convert [] rest

/-- What stands before a character that ends a run and what stands behind it are converted apart. -/
theorem convertRuns_append_cons (apart : inRun character = false) :
    convertRuns inRun convert run (front ++ character :: rest) =
      convertRuns inRun convert run front ++ character :: convertRuns inRun convert [] rest := by
  induction front generalizing run with
  | nil => simp [convertRuns, apart]
  | cons first front ih =>
      rw [List.cons_append, convertRuns, convertRuns]
      split
      · exact ih
      · rw [ih, List.append_assoc, List.cons_append]

theorem convertRuns_of_forall (all : ∀ character ∈ front, inRun character = true) :
    convertRuns inRun convert run front = convert (run ++ front) := by
  induction front generalizing run with
  | nil => rw [convertRuns, List.append_nil]
  | cons first front ih =>
      rw [List.forall_mem_cons] at all
      rw [convertRuns, if_pos all.1, ih all.2, List.append_assoc, List.singleton_append]

theorem convertRuns_append_of_apart (empty : convert [] = [])
    (apart : ∀ character ∈ front, inRun character = false) :
    convertRuns inRun convert [] (front ++ rest) = front ++ convertRuns inRun convert [] rest := by
  induction front with
  | nil => rfl
  | cons first front ih =>
      rw [List.forall_mem_cons] at apart
      rw [List.cons_append, convertRuns, if_neg (by simp [apart.1]), empty, ih apart.2]
      rfl

theorem append_cons_inj {first second : List Char} {restSecond : List Char}
    (inFirst : ∀ character ∈ first, inRun character = true)
    (inSecond : ∀ character ∈ second, inRun character = true) (apart : inRun character = false) :
    first ++ character :: rest = second ++ character :: restSecond ↔
      first = second ∧ rest = restSecond := by
  constructor
  · intro same
    have runs := congrArg (List.takeWhile inRun) same
    simp only [List.takeWhile_append_of_pos inFirst, List.takeWhile_append_of_pos inSecond,
      List.takeWhile_cons_of_neg (Bool.not_eq_true _ ▸ apart), List.append_nil] at runs
    subst runs
    exact ⟨rfl, (List.cons.inj (List.append_cancel_left same)).2⟩
  · rintro ⟨rfl, rfl⟩
    rfl

/-- A text stays as it is exactly if each of its runs does. -/
theorem convertRuns_eq_iff {text : List Char}
    (inside : ∀ character ∈ run, inRun character = true)
    (kept : ∀ part : List Char, (∀ character ∈ part, inRun character = true) →
      ∀ character ∈ convert part, inRun character = true) :
    convertRuns inRun convert run text = run ++ text ↔
      ∀ part ∈ (run ++ text).splitOnP fun character => !inRun character, convert part = part := by
  induction text generalizing run with
  | nil =>
      rw [convertRuns, List.append_nil, List.splitOnP_eq_singleton (by simpa using inside)]
      simp
  | cons first rest ih =>
      rw [convertRuns]
      split
      · next belongs =>
          have extended : ∀ character ∈ run ++ [first], inRun character = true :=
            List.forall_mem_append.mpr ⟨inside, List.forall_mem_singleton.mpr belongs⟩
          have shifted : run ++ first :: rest = (run ++ [first]) ++ rest := by simp
          rw [shifted]
          exact ih extended
      · next ends =>
          have apart : inRun first = false := Bool.eq_false_iff.mpr ends
          rw [append_cons_inj (kept run inside) inside apart,
            List.splitOnP_append_cons_of_forall_mem (by simpa using inside) first (by simp [apart]),
            List.forall_mem_cons]
          exact and_congr_right fun _ => ih (List.forall_mem_nil _)

end Runs

section Numerals

variable {digits text : List Char}

/-- The number that decimal digits of any script write. -/
def decimalValue (digits : List Char) : Nat :=
  ofValues 10 (digits.filterMap digitValue?)

/-- The numeral of the same number without leading zeros, in ASCII. -/
def standardNumeral (digits : List Char) : List Char :=
  if digits.isEmpty then [] else Nat.toDigits 10 (decimalValue digits)

/-- A text with the standard form of all of its numerals. -/
def standardised (text : List Char) : List Char :=
  convertRuns isDigit standardNumeral [] text

/-- Digits of ASCII that do not begin with zero, or zero itself. -/
def IsPlainNumeral (digits : List Char) : Prop :=
  (∀ character ∈ digits, character.isDigit = true) ∧
    (digits.head? = some '0' → digits = ['0'])

/-- Every longest run of digits of a text is plain. -/
def HasPlainNumerals (text : List Char) : Prop :=
  ∀ numeral ∈ text.splitOnP fun character => !isDigit character, IsPlainNumeral numeral

theorem standardNumeral_of_ne_nil (nonempty : digits ≠ []) :
    standardNumeral digits = Nat.toDigits 10 (decimalValue digits) :=
  if_neg (by simpa using nonempty)

theorem isDigit_of_mem_standardNumeral (digits : List Char) :
    ∀ character ∈ standardNumeral digits, character.isDigit = true := by
  intro character member
  by_cases empty : digits = []
  · rw [empty] at member
    cases member
  · rw [standardNumeral_of_ne_nil empty] at member
    exact Nat.isDigit_of_mem_toDigits (by decide) (by decide) member

theorem exists_value_of_isDigit {character : Char} (decimal : character.isDigit = true) :
    ∃ value < 10, digitValue? character = some value ∧ Nat.digitChar value = id character := by
  have ascii : character.toNat < 0x7f :=
    (isVisible_of_isAlphanum (by simp [Char.isAlphanum, decimal])).2
  have found : digitValue? character = some (character.toNat - '0'.toNat) := by
    rw [digitValue?_of_ascii ascii, if_pos decimal]
  have written : character.isDigit = true →
      Nat.digitChar (character.toNat - '0'.toNat) = character :=
    forall_of_ascii (motive := fun other => other.isDigit = true →
      Nat.digitChar (other.toNat - '0'.toNat) = other) (by decide) ascii
  exact ⟨_, digitValue?_lt found, found, written decimal⟩

theorem decimalValue_of_map {values : List Nat} (read : digits.map digitValue? = values.map some) :
    decimalValue digits = ofValues 10 values := by
  have same : digits.filterMap digitValue? = values := by
    have mapped : digits.filterMap digitValue? = (digits.map digitValue?).filterMap id := by
      rw [List.filterMap_map, Function.id_comp]
    rw [mapped, read]
    simp
  rw [decimalValue, same]

/-- The plain numerals are those that have the standard form. -/
theorem standardNumeral_eq_self_iff : standardNumeral digits = digits ↔ IsPlainNumeral digits := by
  constructor
  · intro same
    refine ⟨same ▸ isDigit_of_mem_standardNumeral digits, fun leading => ?_⟩
    have nonempty : digits ≠ [] := by
      rintro rfl
      cases leading
    rw [standardNumeral_of_ne_nil nonempty] at same
    by_cases zero : decimalValue digits = 0
    · rw [← same, zero]
      rfl
    · rw [← same] at leading
      exact absurd leading (head?_toDigits_ne_zero (by decide) (Nat.pos_of_ne_zero zero))
  · rintro ⟨decimal, leading⟩
    cases digits with
    | nil => rfl
    | cons first rest =>
        by_cases zero : first = '0'
        · rw [leading (by rw [zero]; rfl)]
          rfl
        · have notZero : digitValue? first ≠ some 0 := by
            rcases exists_value_of_isDigit (decimal first List.mem_cons_self) with
              ⟨value, _, found, written⟩
            intro same
            rw [found, Option.some.injEq] at same
            subst same
            exact zero written.symm
          rcases exists_toDigits_eq (by decide)
            (fun character inside => exists_value_of_isDigit (decimal character inside)) notZero
            with ⟨values, read, written⟩
          rw [standardNumeral_of_ne_nil (List.cons_ne_nil first rest), decimalValue_of_map read,
            written, List.map_id]

theorem standardised_eq_self_iff : standardised text = text ↔ HasPlainNumerals text := by
  have kept : ∀ part : List Char, (∀ character ∈ part, isDigit character = true) →
      ∀ character ∈ standardNumeral part, isDigit character = true :=
    fun part _ character member => isDigit_of_decimal (isDigit_of_mem_standardNumeral part _ member)
  have unchanged := @convertRuns_eq_iff isDigit standardNumeral [] text (List.forall_mem_nil _) kept
  simp only [List.nil_append, standardNumeral_eq_self_iff] at unchanged
  exact unchanged

theorem foldl_foldDigits (allDigits : ∀ character ∈ digits, isDigit character = true)
    (total : Nat) :
    (foldDigits digits).foldl (fun total digit => total * 10 + (digit.toNat - '0'.toNat)) total =
      (digits.filterMap digitValue?).foldl (fun total value => total * 10 + value) total := by
  induction digits generalizing total with
  | nil => rfl
  | cons first rest ih =>
      rw [List.forall_mem_cons] at allDigits
      rcases Option.isSome_iff_exists.mp allDigits.1 with ⟨value, found⟩
      rw [List.filterMap_cons_some found, foldDigits_eq_map, List.map_cons, List.foldl_cons,
        List.foldl_cons, toNat_toAscii found, ← foldDigits_eq_map]
      exact ih allDigits.2 _

/-- What is read from decimal digits is the number that they write. -/
theorem integer?_eq_decimalValue (nonempty : digits ≠ [])
    (allDigits : ∀ character ∈ digits, isDigit character = true) :
    integer? digits =
      if digitLimit < digits.length then none else some (decimalValue digits : Int) := by
  rw [integer?_of_digits nonempty allDigits, foldl_foldDigits allDigits, decimalValue, ofValues]

end Numerals

end Text

namespace AbiType

/-- A text without its blanks. -/
def compact (text : List Char) : List Char :=
  text.filter fun character => !Text.isBlank character

/-- The characters that stand between the names of types. -/
def delimiters : List Char :=
  ['(', ')', '[', ']', ',']

def isDelimiter (character : Char) : Bool :=
  delimiters.contains character

/-- The name of an integer type with the width that it has when none is written. -/
def expandName (name : List Char) : List Char :=
  if name = "uint".toList ∨ name = "int".toList then name ++ "256".toList else name

/-- A text without its blanks, where every bare `uint` or `int` has got its width. -/
def expanded (text : List Char) : List Char :=
  Text.convertRuns (fun character => !isDelimiter character) expandName [] (compact text)

/-- The text that a type is written as again when it is read from a text. -/
def standardText (text : List Char) : List Char :=
  Text.standardised (expanded text)

section Standard

variable {front rest text digits : List Char} {delimiter : Char}

theorem isVisible_of_isDelimiter (delimits : isDelimiter delimiter = true) :
    Text.IsVisible delimiter ∧ delimiter.isAlphanum = false := by
  have visible : ∀ delimiter ∈ delimiters, Text.IsVisible delimiter :=
    Text.isVisible_of_all (by decide)
  have other : (delimiters.all fun delimiter => !delimiter.isAlphanum) = true := rfl
  have listed : delimiter ∈ delimiters := List.contains_iff_mem.mp delimits
  exact ⟨visible delimiter listed, by simpa using List.all_eq_true.mp other delimiter listed⟩

theorem isDigit_of_isDelimiter (delimits : isDelimiter delimiter = true) :
    Text.isDigit delimiter = false := by
  rcases isVisible_of_isDelimiter delimits with ⟨visible, other⟩
  rw [Char.isAlphanum, Bool.or_eq_false_iff] at other
  rw [Text.isDigit_of_ascii visible.2, other.2]

theorem standardText_append_cons (delimits : isDelimiter delimiter = true) :
    standardText (front ++ delimiter :: rest) =
      standardText front ++ delimiter :: standardText rest := by
  have notBlank := (isVisible_of_isDelimiter delimits).1.not_blank
  have compacted : compact (front ++ delimiter :: rest) =
      compact front ++ delimiter :: compact rest := by
    rw [compact, List.filter_append, List.filter_cons_of_pos (by simp [notBlank])]
    rfl
  rw [standardText, expanded, compacted, Text.convertRuns_append_cons (by simp [delimits]),
    Text.standardised, Text.convertRuns_append_cons (isDigit_of_isDelimiter delimits)]
  rfl

theorem compact_dropWhile (text : List Char) :
    compact (text.dropWhile Text.isBlank) = compact text := by
  induction text with
  | nil => rfl
  | cons first rest ih =>
      by_cases blank : Text.isBlank first = true
      · rw [List.dropWhile_cons_of_pos blank, ih, compact, compact,
          List.filter_cons_of_neg (by simp [blank])]
      · rw [List.dropWhile_cons_of_neg blank]

theorem standardText_strip (text : List Char) :
    standardText (Text.strip text) = standardText text := by
  have atEnd : ∀ text, compact (Text.stripRight text) = compact text := by
    intro text
    have reversed := compact_dropWhile text.reverse
    rw [Text.stripRight, compact, List.filter_reverse]
    rw [compact, compact, List.filter_reverse] at reversed
    rw [reversed, List.reverse_reverse]
    rfl
  rw [standardText, expanded, Text.strip, atEnd, compact_dropWhile]
  rfl

/-- A name stays as it is if it has no blanks and no delimiters, and is not bare. -/
theorem expanded_of_name (solid : ∀ character ∈ text, Text.isBlank character = false)
    (undelimited : ∀ character ∈ text, isDelimiter character = false)
    (notBare : text ≠ "uint".toList ∧ text ≠ "int".toList) : expanded text = text := by
  have compacted : compact text = text :=
    List.filter_eq_self.mpr fun character member => by simp [solid character member]
  rw [expanded, compacted, Text.convertRuns_of_forall (by simpa using undelimited),
    List.nil_append, expandName, if_neg (by simpa using notBare)]

section Decimal

variable (decimal : ∀ character ∈ digits, Text.isDigit character = true)

include decimal

theorem not_mem_of_isDigit {character : Char} (other : Text.isDigit character = false) :
    character ∉ digits := by
  intro member
  rw [decimal character member] at other
  cases other

theorem isDelimiter_of_isDigit : ∀ character ∈ digits, isDelimiter character = false := by
  intro character member
  rw [Bool.eq_false_iff]
  intro delimits
  exact not_mem_of_isDigit decimal (isDigit_of_isDelimiter delimits) member

/-- A name of letters and digits is changed in its numeral only. -/
theorem standardText_name {word : List Char}
    (letters : ∀ character ∈ word, character.isAlphanum = true ∧ character.isDigit = false)
    (notBare : word ++ digits ≠ "uint".toList ∧ word ++ digits ≠ "int".toList) :
    standardText (word ++ digits) = word ++ Text.standardNumeral digits := by
  have visible : ∀ character ∈ word, Text.IsVisible character :=
    fun character member => Text.isVisible_of_isAlphanum (letters character member).1
  have solid : ∀ character ∈ word ++ digits, Text.isBlank character = false :=
    List.forall_mem_append.mpr ⟨fun character member => (visible character member).not_blank,
      fun character member => Text.isBlank_of_isDigit (decimal character member)⟩
  have undelimited : ∀ character ∈ word ++ digits, isDelimiter character = false := by
    refine List.forall_mem_append.mpr ⟨fun character member => ?_, isDelimiter_of_isDigit decimal⟩
    rw [Bool.eq_false_iff]
    intro delimits
    have other := (isVisible_of_isDelimiter delimits).2
    rw [(letters character member).1] at other
    cases other
  have apart : ∀ character ∈ word, Text.isDigit character = false := by
    intro character member
    rw [Text.isDigit_of_ascii (visible character member).2, (letters character member).2]
  rw [standardText, expanded_of_name solid undelimited notBare, Text.standardised,
    Text.convertRuns_append_of_apart rfl apart, Text.convertRuns_of_forall decimal,
    List.nil_append]

theorem standardText_digits : standardText digits = Text.standardNumeral digits := by
  have notBare : digits ≠ "uint".toList ∧ digits ≠ "int".toList := by
    constructor <;>
      (rintro rfl
       exact absurd (decimal 'i' (by decide)) (by decide))
  exact standardText_name decimal (List.forall_mem_nil _) notBare

theorem standardText_sized {word : String} {build : Value → Outcome AbiType}
    (sized : (word, build) ∈ sizedTypes) (nonempty : digits ≠ []) :
    standardText (word.toList ++ digits) = word.toList ++ Text.standardNumeral digits := by
  have notBare : word.toList ++ digits ≠ "uint".toList ∧ word.toList ++ digits ≠ "int".toList := by
    have last : ∀ name : List Char, 't' ∈ name.getLast? → word.toList ++ digits ≠ name := by
      rintro name ended rfl
      rw [List.getLast?_append_of_ne_nil _ nonempty] at ended
      exact not_mem_of_isDigit decimal (by decide : Text.isDigit 't' = false)
        (List.mem_of_getLast? ended)
    exact ⟨last _ rfl, last _ rfl⟩
  have letters : (word.toList.all fun character =>
      character.isAlphanum && !character.isDigit) = true := by
    simp only [sizedTypes, List.mem_cons, List.not_mem_nil, or_false, Prod.mk.injEq] at sized
    rcases sized with ⟨rfl, -⟩ | ⟨rfl, -⟩ | ⟨rfl, -⟩ <;> rfl
  exact standardText_name decimal (by simpa using letters) notBare

end Decimal

end Standard

section Parts

variable {text base digits inner part : List Char} {members parts : List (List Char)}
  {types : List AbiType} {depth : Nat}

theorem eq_of_arraySuffix? (suffix : arraySuffix? text = some (base, digits)) :
    text = base ++ '[' :: (digits ++ [']']) := by
  unfold arraySuffix? at suffix
  split at suffix
  · next rest reversed =>
      split at suffix
      · next before dropped =>
          simp only [Option.ite_none_left_eq_some, Option.some.injEq, Prod.mk.injEq] at suffix
          rcases suffix with ⟨_, rfl, rfl⟩
          have whole : rest = rest.takeWhile Text.isDigit ++ '[' :: before := by
            rw [← dropped, List.takeWhile_append_dropWhile]
          rw [← List.reverse_inj, reversed]
          simpa using whole
      · cases suffix
  · cases suffix

theorem eq_of_groupContent? (group : groupContent? text = some inner) :
    text = '(' :: (inner ++ [')']) := by
  unfold groupContent? at group
  split at group
  · next rest =>
      simp only [Option.ite_none_right_eq_some, Option.some.injEq] at group
      rw [← group.2, List.dropLast_append_getLast? ')' group.1]
  · cases group

theorem intercalate_cons (character : Char) (part : List Char) (parts : List (List Char)) :
    [','].intercalate ((character :: part) :: parts) =
      character :: [','].intercalate (part :: parts) := by
  cases parts with
  | nil => rw [List.intercalate_singleton, List.intercalate_singleton]
  | cons second parts =>
      rw [List.intercalate_cons_cons, List.intercalate_cons_cons]
      rfl

/-- The parts of a text, joined by commas, are the text. -/
theorem eq_intercalate_of_splitFrom (split : splitFrom depth text = some (part, parts)) :
    text = [','].intercalate (part :: parts) := by
  fun_induction splitFrom depth text generalizing part parts with
  | case1 =>
      simp only [Option.some.injEq, Prod.mk.injEq] at split
      rw [← split.1, ← split.2]
      rfl
  | case2 => cases split
  | case3 rest ih =>
      simp only [Option.bind_eq_bind, Option.bind_eq_some_iff, Option.some.injEq, Prod.mk.injEq,
        Prod.exists] at split
      rcases split with ⟨first, others, inside, rfl, rfl⟩
      rw [List.intercalate_cons_cons, ← ih inside]
      rfl
  | case4 depth rest ih | case6 depth rest ih | case7 depth character rest _ _ _ _ ih =>
      simp only [Option.bind_eq_bind, Option.bind_eq_some_iff, Option.some.injEq, Prod.mk.injEq,
        Prod.exists] at split
      rcases split with ⟨first, others, inside, rfl, rfl⟩
      rw [intercalate_cons, ← ih inside]
  | case5 => cases split

theorem eq_intercalate_of_splitTopLevel (split : splitTopLevel text = some members) :
    text = [','].intercalate members := by
  simp only [splitTopLevel, Option.map_eq_some_iff, Prod.exists] at split
  rcases split with ⟨part, others, separated, rfl⟩
  exact eq_intercalate_of_splitFrom separated

/-- Types are joined as the texts of the members are. -/
theorem standardText_intercalate (nonempty : members ≠ [])
    (each : List.Forall₂ (fun member (type : AbiType) => type.spelling = standardText member)
      members types) : standardText ([','].intercalate members) = spellings types := by
  induction each with
  | nil => exact absurd rfl nonempty
  | @cons member type members types written others ih =>
      cases others with
      | nil =>
          rw [List.intercalate_singleton, ← written]
          rfl
      | cons second others =>
          rw [List.intercalate_cons_cons, List.append_assoc, List.singleton_append,
            standardText_append_cons rfl, ih (List.cons_ne_nil _ _), ← written, spellings_cons_cons]

end Parts

section Reading

variable {text : List Char} {item type : AbiType}

theorem numberOf_inv {digits : List Char} {value : Value} (nonempty : digits ≠ [])
    (decimal : ∀ character ∈ digits, Text.isDigit character = true)
    (read : numberOf digits = .ok value) :
    value = .int (Text.decimalValue digits) ∧
      Nat.toDigits 10 (Text.decimalValue digits) = Text.standardNumeral digits := by
  refine ⟨?_, (Text.standardNumeral_of_ne_nil nonempty).symm⟩
  rw [numberOf, Text.integer?_eq_decimalValue nonempty decimal] at read
  split at read
  · next number found =>
      rw [Option.ite_none_left_eq_some, Option.some.injEq] at found
      rw [← found.2] at read
      exact (Except.ok.inj read).symm
  · cases read

/-- A type with a size is written as the word that it begins with and the size. -/
theorem spelling_of_sized {word : String} {build : Value → Outcome AbiType} {number : Nat}
    (sized : (word, build) ∈ sizedTypes) (built : build (.int number) = .ok type) :
    type.spelling = word.toList ++ Nat.toDigits 10 number := by
  have width : ∀ {name result}, widthOf name (.int number) = .ok result → result = number := by
    intro name result found
    by_cases isWidth : IsWidth number
    · simp only [widthOf, Int.toNat_natCast, isWidth, if_true, Outcome.pure_eq_ok,
        Except.ok.injEq] at found
      exact found.symm
    · simp only [widthOf, Int.toNat_natCast, isWidth, if_false] at found
      exact absurd found (refusal_ne_ok _ _ _ _)
  simp only [sizedTypes, List.mem_cons, List.not_mem_nil, or_false, Prod.mk.injEq] at sized
  rcases sized with ⟨rfl, rfl⟩ | ⟨rfl, rfl⟩ | ⟨rfl, rfl⟩
  · rcases Outcome.bind_eq_ok_iff.mp built with ⟨bits, found, rebuilt⟩
    cases rebuilt
    rw [spelling_uint, width found]
  · rcases Outcome.bind_eq_ok_iff.mp built with ⟨bits, found, rebuilt⟩
    cases rebuilt
    rw [spelling_int, width found]
  · by_cases inWord : 1 ≤ (number : Int) ∧ (number : Int) ≤ Bytes.wordLength
    · simp only [fixedBytesOf, inWord, and_self, if_true, Outcome.pure_eq_ok, Except.ok.injEq,
        Int.toNat_natCast] at built
      rw [← built, spelling_fixedBytes]
    · simp only [fixedBytesOf, inWord, if_false] at built
      exact absurd built (refusal_ne_ok _ _ _ _)

theorem spelling_of_elementary {source : String} (read : elementary source text = .ok type) :
    type.spelling = standardText text := by
  have sized : ∀ {word build digits}, (word, build) ∈ sizedTypes → digits ≠ [] →
      digitsAfter? word text = some digits → numberOf digits >>= build = .ok type →
        type.spelling = standardText text := by
    intro word build digits listed nonempty found readSized
    rcases digitsAfter?_eq_some_iff.mp found with ⟨written, decimal⟩
    rcases Outcome.bind_eq_ok_iff.mp readSized with ⟨value, number, built⟩
    rcases numberOf_inv nonempty decimal number with ⟨rfl, standard⟩
    rw [spelling_of_sized listed built, standard, written,
      standardText_sized decimal listed nonempty]
  have named : ∀ {name : String} {known : AbiType}, text = name.toList →
      (.ok known : Outcome AbiType) = .ok type → known.spelling = standardText name.toList →
        type.spelling = standardText text := by
    rintro name known rfl same written
    rw [← Except.ok.inj same, written]
  rw [elementary] at read
  split at read
  · next written => exact named written read (by decide)
  split at read
  · next written => exact named written read (by decide)
  split at read
  · next written => exact named written read (by decide)
  split at read
  · next written => exact named written read (by decide)
  next notBytes =>
    split at read
    · next bare =>
        rw [(digitsAfter?_eq_some_iff.mp bare).1, spelling_of_sized uint_sized read]
        decide
    · next nonempty found => exact sized uint_sized nonempty found read
    · next bare =>
        rw [(digitsAfter?_eq_some_iff.mp bare).1, spelling_of_sized int_sized read]
        decide
    · next nonempty _ found => exact sized int_sized nonempty found read
    · next digits _ _ found =>
        refine sized bytes_sized ?_ found read
        rintro rfl
        exact notBytes (by simpa using (digitsAfter?_eq_some_iff.mp found).1)
    · simp [malformed] at read

/-- An array is written as its item and a suffix. -/
theorem spelling_of_suffix {base digits : List Char} (written : item.spelling = standardText base)
    (suffix : arraySuffix? text = some (base, digits))
    (built : (if digits.isEmpty then arrayOf item else numberOf digits >>= fixedArrayOf item) =
      .ok type) : type.spelling = standardText text := by
  have decimal := isDigit_of_arraySuffix? suffix
  rw [eq_of_arraySuffix? suffix, standardText_append_cons rfl, standardText_append_cons rfl,
    standardText_digits decimal, ← written]
  split at built
  · next none =>
      rw [arrayOf_inv built, List.isEmpty_iff.mp none]
      rfl
  · next some =>
      have nonempty : digits ≠ [] := by simpa using some
      rcases Outcome.bind_eq_ok_iff.mp built with ⟨value, number, built⟩
      rcases numberOf_inv nonempty decimal number with ⟨rfl, standard⟩
      rcases fixedArrayOf_inv built with ⟨length, same, _, rfl⟩
      rw [Value.int.injEq, Int.natCast_inj] at same
      rw [spelling_fixedArray, ← same, standard]
      rfl

theorem spelling_of_emptyGroup (group : groupContent? text = some []) :
    spelling (.tuple []) = standardText text := by
  rw [eq_of_groupContent? group]
  decide

/-- A tuple is written as its components in parentheses. -/
theorem spelling_of_group {inner : List Char} {members : List (List Char)} {types : List AbiType}
    (group : groupContent? text = some inner) (split : splitTopLevel inner = some members)
    (each : List.Forall₂ (fun member (type : AbiType) => type.spelling = standardText member)
      members types) : spelling (.tuple types) = standardText text := by
  have nonempty : members ≠ [] := by
    rintro rfl
    simp [splitTopLevel] at split
  rw [eq_of_groupContent? group, eq_intercalate_of_splitTopLevel split,
    ← List.nil_append ('(' :: _), standardText_append_cons rfl, standardText_append_cons rfl,
    standardText_intercalate nonempty each]
  rfl

/-- The canonical text of what is read is the standard form of the text. -/
theorem spelling_of_ofText (read : ofText withoutComponents text = .ok type) :
    type.spelling = standardText text := by
  generalize given : withoutComponents = tupleType at read
  -- The reader takes the text apart at its delimiters, and there it is converted apart.
  fun_induction ofText tupleType text generalizing type with
  | case1 => simp [malformed] at read
  | case2 =>
      rename_i suffix ih
      rcases Outcome.bind_eq_ok_iff.mp read with ⟨item, readItem, built⟩
      rw [← standardText_strip]
      exact spelling_of_suffix (ih given readItem) suffix built
  | case3 =>
      subst given
      simp [withoutComponents, malformed] at read
  | case4 =>
      rename_i group empty
      cases read
      rw [List.isEmpty_iff.mp empty] at group
      rw [← standardText_strip]
      exact spelling_of_emptyGroup group
  | case5 => simp [malformed] at read
  | case6 =>
      rename_i group _ members split ih
      rcases Outcome.bind_eq_ok_iff.mp read with ⟨types, readTypes, built⟩
      have each : List.Forall₂ (fun member (type : AbiType) => type.spelling = standardText member)
          members types := by
        rw [← List.attach_map_subtype_val members, List.forall₂_map_left_iff]
        exact (Outcome.mapM_eq_ok_iff.mp readTypes).imp
          fun member _ readOne => ih member rfl readOne
      rw [← standardText_strip, tupleOf_inv built]
      exact spelling_of_group group split each
  | case7 =>
      rw [← standardText_strip]
      exact spelling_of_elementary read

/-- The canonical text of what is read is the text itself, without the blanks and with the widths
that are not written; and what is not read is refused as no type. -/
def KeepsText (text : String) : Prop :=
  match parse text with
  | .ok type => type.canonical = String.ofList (expanded text.toList)
  | .error failure => ∃ fault, failure = .fault fault ∧ fault.kind = .abiParse

/-- A text is kept exactly if reading it meets no numeral that is too long, and all numerals are
plain if it is read as a type. Whatever is read has its numerals in the standard form. -/
theorem keepsText_iff (text : String) :
    (KeepsText text ↔ ¬MeetsLongNumeral none text.toList ∧
      ∀ type, parse text = .ok type → Text.HasPlainNumerals (expanded text.toList)) ∧
    ∀ type, parse text = .ok type →
      type.canonical = String.ofList (Text.standardised (expanded text.toList)) := by
  have standard : ∀ {type}, parse text = .ok type →
      type.canonical = String.ofList (Text.standardised (expanded text.toList)) :=
    fun read => congrArg String.ofList (spelling_of_ofText read)
  refine ⟨?_, fun _ => standard⟩
  have settles : Settles (MeetsLongNumeral none text.toList) (parse text) :=
    settles_ofParts none text.toList
  have meets : MeetsLongNumeral none text.toList → parse text = Outcome.condition .badValue :=
    MeetsLongNumeral.ofParts_eq
  rw [KeepsText]
  generalize outcome : parse text = result at settles meets ⊢
  cases settles with
  | ok type =>
      have canonical : type.canonical = String.ofList (expanded text.toList) ↔
          Text.HasPlainNumerals (expanded text.toList) := by
        rw [standard outcome, String.ofList_inj, Text.standardised_eq_self_iff]
      constructor
      · intro kept
        exact ⟨(fun met => nomatch meets met), fun _ _ => canonical.mp kept⟩
      · rintro ⟨_, plain⟩
        exact canonical.mpr (plain type rfl)
  | @refused fault kind =>
      constructor
      · intro _
        exact ⟨(fun met => nomatch meets met), nofun⟩
      · intro _
        exact ⟨fault, rfl, kind⟩
  | long met =>
      constructor
      · rintro ⟨fault, same, _⟩
        cases same
      · rintro ⟨notMet, _⟩
        exact absurd met notMet

/-- A digit of another script is read as a width. -/
theorem not_keepsText_foreignDigit : ¬KeepsText "uint\u0668" := by
  have stripped : Text.strip "uint\u0668".toList = "uint".toList ++ ['\u0668'] := by decide
  have read : parse "uint\u0668" = .ok (.uint 8) := by
    have decimal : Text.isDigit '\u0668' = true := rfl
    rw [parse, ofText_sized uint_sized stripped (List.cons_ne_nil _ _)
      (List.forall_mem_singleton.mpr decimal)]
    rfl
  rw [KeepsText, read]
  decide

end Reading

end AbiType

end ContractClient
