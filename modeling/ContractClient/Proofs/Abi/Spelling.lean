import ContractClient.Abi.Type.Reader
import ContractClient.Proofs.Abi.Type
import ContractClient.Proofs.Text.Integer

/-!
# The texts of types

A canonical text is a single word: all of its characters are visible
(`AbiType.isVisible_of_mem_spelling`). Its last character tells how the type was built. A suffix in
brackets is taken off by `AbiType.arraySuffix?`, a group in parentheses by `AbiType.groupContent?`,
and what has neither is the name of an elementary type.

The members of a group are separated by the commas outside parentheses. `AbiType.IsKept` says that
no place of a text separates members when a given number of parentheses is open before it. A
canonical text is kept at every depth, because its commas stand inside its own parentheses, so the
members that are separated are those that were joined (`AbiType.splitTopLevel_spellings`).
-/

namespace ContractClient.AbiType

section Characters

variable {property : Char → Prop}

@[simp]
theorem spelling_uint (bits : Nat) :
    spelling (.uint bits) = "uint".toList ++ Nat.toDigits 10 bits :=
  rfl

@[simp]
theorem spelling_int (bits : Nat) :
    spelling (.int bits) = "int".toList ++ Nat.toDigits 10 bits :=
  rfl

@[simp]
theorem spelling_fixedBytes (size : Nat) :
    spelling (.fixedBytes size) = "bytes".toList ++ Nat.toDigits 10 size :=
  rfl

@[simp]
theorem spelling_fixedArray (item : AbiType) (length : Nat) :
    spelling (.fixedArray item length) =
      item.spelling ++ '[' :: (Nat.toDigits 10 length ++ [']']) :=
  rfl

@[simp]
theorem spelling_array (item : AbiType) : spelling (.array item) = item.spelling ++ ['[', ']'] :=
  rfl

@[simp]
theorem spelling_tuple (components : List AbiType) :
    spelling (.tuple components) = '(' :: (spellings components ++ [')']) :=
  rfl

theorem spellings_cons_cons (type second : AbiType) (types : List AbiType) :
    spellings (type :: second :: types) = type.spelling ++ ',' :: spellings (second :: types) :=
  rfl

theorem forall_mem_spellings {types : List AbiType} (comma : property ',')
    (each : ∀ type ∈ types, ∀ character ∈ type.spelling, property character) :
    ∀ character ∈ spellings types, property character := by
  induction types with
  | nil =>
      intro character member
      exact absurd member List.not_mem_nil
  | cons type types ih =>
      rw [List.forall_mem_cons] at each
      cases types with
      | nil =>
          intro character member
          exact each.1 character member
      | cons second types =>
          intro character member
          rw [spellings_cons_cons, List.mem_append, List.mem_cons] at member
          rcases member with inFirst | rfl | inOthers
          · exact each.1 character inFirst
          · exact comma
          · exact ih each.2 character inOthers

theorem isDigit_of_mem_toDigits {number : Nat} :
    ∀ character ∈ Nat.toDigits 10 number, character.isDigit = true :=
  fun _ member => Nat.isDigit_of_mem_toDigits (by decide) (by decide) member

theorem isVisible_of_mem_toDigits {number : Nat} :
    ∀ character ∈ Nat.toDigits 10 number, Text.IsVisible character := by
  intro character member
  apply Text.isVisible_of_isAlphanum
  simp [Char.isAlphanum, isDigit_of_mem_toDigits character member]

theorem isVisible_of_mem_spelling (type : AbiType) :
    ∀ character ∈ type.spelling, Text.IsVisible character := by
  induction type with
  | uint bits | int bits | fixedBytes bits =>
      exact List.forall_mem_append.mpr
        ⟨Text.isVisible_of_all (by decide), isVisible_of_mem_toDigits⟩
  | address | bool | bytes | string => exact Text.isVisible_of_all (by decide)
  | fixedArray item length ih =>
      simp only [spelling_fixedArray, List.forall_mem_append, List.forall_mem_cons]
      exact ⟨ih, by decide, isVisible_of_mem_toDigits, by decide, List.forall_mem_nil _⟩
  | array item ih =>
      simp only [spelling_array, List.forall_mem_append]
      exact ⟨ih, Text.isVisible_of_all (by decide)⟩
  | tuple components ih =>
      simp only [spelling_tuple, List.forall_mem_append, List.forall_mem_cons]
      exact ⟨by decide, forall_mem_spellings (by decide) ih, by decide, List.forall_mem_nil _⟩

theorem spelling_ne_nil (type : AbiType) : type.spelling ≠ [] := by
  cases type with
  | address | bool | bytes | string => exact List.cons_ne_nil _ _
  | _ => simp

theorem spellings_ne_nil {types : List AbiType} (nonempty : types ≠ []) :
    spellings types ≠ [] := by
  cases types with
  | nil => exact absurd rfl nonempty
  | cons type types =>
      cases types with
      | nil => exact spelling_ne_nil type
      | cons second types =>
          simp [spellings_cons_cons]

/-- An elementary type: one that is neither an array nor a tuple. -/
def IsElementary : AbiType → Prop
  | fixedArray _ _ => False
  | array _ => False
  | tuple _ => False
  | _ => True

theorem isAlphanum_of_mem_spelling {type : AbiType} (elementary : type.IsElementary) :
    ∀ character ∈ type.spelling, character.isAlphanum = true := by
  have digits : ∀ number, ∀ character ∈ Nat.toDigits 10 number, character.isAlphanum = true := by
    intro number character member
    simp [Char.isAlphanum, isDigit_of_mem_toDigits character member]
  cases type with
  | uint bits | int bits | fixedBytes bits =>
      exact List.forall_mem_append.mpr ⟨List.all_eq_true.mp (by decide), digits bits⟩
  | address | bool | bytes | string => exact List.all_eq_true.mp (by decide)
  | fixedArray item length | array item | tuple components => exact elementary.elim

end Characters

section Members

variable {depth : Nat} {text first second : List Char} {character : Char}

/-- No place of a text separates members when `depth` parentheses are open before it. -/
def IsKept (depth : Nat) (text : List Char) : Prop :=
  ∀ rest, splitFrom depth (text ++ rest) =
    (splitFrom depth rest).map fun parts => (text ++ parts.1, parts.2)

/-- A character that neither separates members nor opens or closes a group. -/
def IsPlain (character : Char) : Prop :=
  character ≠ ',' ∧ character ≠ '(' ∧ character ≠ ')'

theorem isKept_nil : IsKept depth [] := by
  intro rest
  simp

theorem IsKept.append (keptFirst : IsKept depth first) (keptSecond : IsKept depth second) :
    IsKept depth (first ++ second) := by
  intro rest
  rw [List.append_assoc, keptFirst, keptSecond, Option.map_map]
  simp [Function.comp_def]

theorem isKept_of_isPlain (plain : IsPlain character) : IsKept depth [character] := by
  rcases plain with ⟨notComma, notOpening, notClosing⟩
  intro rest
  rw [List.singleton_append, splitFrom]
  · cases splitFrom depth rest <;> rfl
  · exact notOpening
  · exact fun _ => notComma
  · exact fun _ => notClosing
  · exact fun _ _ => notClosing

theorem isKept_comma : IsKept (depth + 1) [','] := by
  intro rest
  rw [List.singleton_append, splitFrom]
  · cases splitFrom (depth + 1) rest <;> rfl
  all_goals simp

theorem isKept_of_forall (plain : ∀ character ∈ text, IsPlain character) : IsKept depth text := by
  induction text with
  | nil => exact isKept_nil
  | cons character text ih =>
      rw [List.forall_mem_cons] at plain
      exact (isKept_of_isPlain plain.1).append (ih plain.2)

theorem IsKept.group (kept : IsKept (depth + 1) text) :
    IsKept depth ('(' :: (text ++ [')'])) := by
  intro rest
  rw [List.cons_append, List.append_assoc, List.singleton_append, splitFrom, kept,
    splitFrom]
  cases splitFrom depth rest <;> simp

theorem isPlain_of_isAlphanum (alphanumeric : character.isAlphanum = true) :
    IsPlain character := by
  refine ⟨?_, ?_, ?_⟩ <;>
    (rintro rfl
     exact absurd alphanumeric (by decide))

theorem isKept_spellings {types : List AbiType}
    (each : ∀ type ∈ types, IsKept (depth + 1) type.spelling) :
    IsKept (depth + 1) (spellings types) := by
  induction types with
  | nil => exact isKept_nil
  | cons type types ih =>
      rw [List.forall_mem_cons] at each
      cases types with
      | nil => exact each.1
      | cons second types =>
          exact each.1.append (isKept_comma.append (ih each.2))

theorem isKept_suffix {number : Nat} :
    IsKept depth ('[' :: (Nat.toDigits 10 number ++ [']'])) := by
  apply isKept_of_forall
  simp only [List.forall_mem_cons, List.forall_mem_append]
  refine ⟨by simp [IsPlain], fun character member => ?_, by simp [IsPlain], by simp⟩
  apply isPlain_of_isAlphanum
  simp [Char.isAlphanum, isDigit_of_mem_toDigits character member]

theorem isKept_spelling (type : AbiType) (depth : Nat) : IsKept depth type.spelling := by
  induction type generalizing depth with
  | fixedArray item length ih => exact (ih depth).append isKept_suffix
  | array item ih => exact (ih depth).append (isKept_of_forall (by simp [IsPlain]))
  | tuple components ih =>
      exact (isKept_spellings fun component member => ih component member (depth + 1)).group
  | _ =>
      apply isKept_of_forall
      intro character member
      apply isPlain_of_isAlphanum
      exact isAlphanum_of_mem_spelling (by simp [IsElementary]) character member

theorem splitFrom_spellings (type : AbiType) (types : List AbiType) :
    splitFrom 0 (spellings (type :: types)) = some (type.spelling, types.map spelling) := by
  induction types generalizing type with
  | nil =>
      have kept := isKept_spelling type 0 []
      rwa [List.append_nil, splitFrom, if_pos rfl, Option.map_some, List.append_nil] at kept
  | cons second types ih =>
      rw [spellings_cons_cons, isKept_spelling, splitFrom, ih]
      simp

/-- The members that are separated are those that were joined. -/
theorem splitTopLevel_spellings {types : List AbiType} (nonempty : types ≠ []) :
    splitTopLevel (spellings types) = some (types.map spelling) := by
  cases types with
  | nil => exact absurd rfl nonempty
  | cons type types => rw [splitTopLevel, splitFrom_spellings, Option.map_some, List.map_cons]

/-- A text in which the list of a group begins but does not end has no members. -/
theorem splitFrom_of_open (types : List AbiType) (text : List Char) :
    splitFrom depth (text ++ '(' :: spellings types) = none := by
  induction text generalizing depth with
  | nil =>
      have kept : IsKept (depth + 1) (spellings types) :=
        isKept_spellings fun type _ => isKept_spelling type (depth + 1)
      have unfinished := kept []
      rw [List.append_nil, splitFrom, if_neg (Nat.succ_ne_zero depth), Option.map_none]
        at unfinished
      rw [List.nil_append, splitFrom, unfinished]
      rfl
  | cons character text ih =>
      rw [List.cons_append]
      unfold splitFrom
      split <;> simp_all

/-- No list of types ends with the list of a group that begins in it. -/
theorem spellings_ne_of_open (first second : List AbiType) (text : List Char) :
    spellings first ≠ text ++ '(' :: spellings second := by
  intro same
  cases first with
  | nil => simp [spellings] at same
  | cons type types =>
      have separated := splitFrom_spellings type types
      rw [same, splitFrom_of_open] at separated
      cases separated

end Members

section Parts

variable {text digits : List Char}

theorem arraySuffix?_append (decimal : ∀ character ∈ digits, Text.isDigit character = true)
    (unbroken : '\n' ∉ text) :
    arraySuffix? (text ++ '[' :: (digits ++ [']'])) = some (text, digits) := by
  have reversed : (text ++ '[' :: (digits ++ [']'])).reverse =
      ']' :: (digits.reverse ++ '[' :: text.reverse) := by
    simp
  have decimalReversed : ∀ character ∈ digits.reverse, Text.isDigit character = true := by
    simpa using decimal
  have bracket : Text.isDigit '[' = false := by decide
  simp [arraySuffix?, reversed, List.dropWhile_append_of_pos decimalReversed,
    List.takeWhile_append_of_pos decimalReversed, bracket, unbroken]

theorem arraySuffix?_eq_none {last : Char} (notBracket : last ≠ ']') :
    arraySuffix? (text ++ [last]) = none := by
  simp [arraySuffix?, notBracket]

theorem isDigit_of_arraySuffix? {base : List Char}
    (suffix : arraySuffix? text = some (base, digits)) :
    ∀ character ∈ digits, Text.isDigit character = true := by
  unfold arraySuffix? at suffix
  split at suffix
  · split at suffix
    · simp only [Option.ite_none_left_eq_some, Option.some.injEq, Prod.mk.injEq] at suffix
      rcases suffix with ⟨_, _, rfl⟩
      simpa using List.all_eq_true.mp List.all_takeWhile
    · cases suffix
  · cases suffix

/-- What stands in parentheses has no suffix after them. -/
theorem arraySuffix?_eq_none_of_group {inner : List Char}
    (group : groupContent? text = some inner) : arraySuffix? text = none := by
  unfold groupContent? at group
  split at group
  · next rest =>
      simp only [Option.ite_none_right_eq_some, List.getLast?_eq_some_iff] at group
      rcases group with ⟨⟨content, rfl⟩, _⟩
      exact @arraySuffix?_eq_none ('(' :: content) ')' (by decide)
  · cases group

theorem groupContent?_group : groupContent? ('(' :: (text ++ [')'])) = some text := by
  simp [groupContent?]

theorem groupContent?_eq_none (absent : '(' ∉ text) : groupContent? text = none := by
  cases text with
  | nil => rfl
  | cons first rest =>
      have notOpening : first ≠ '(' := by
        rintro rfl
        exact absent List.mem_cons_self
      simp [groupContent?, notOpening]

theorem digitsAfter?_eq_some_iff {word : String} :
    digitsAfter? word text = some digits ↔
      text = word.toList ++ digits ∧ ∀ character ∈ digits, Text.isDigit character = true := by
  have dropped : ∀ rest, (word.toList ++ rest).drop word.length = rest := by
    intro rest
    rw [← String.length_toList, List.drop_left]
  constructor
  · intro found
    simp only [digitsAfter?, Option.ite_none_right_eq_some, List.isPrefixOf_iff_prefix,
      Option.some.injEq] at found
    rcases found with ⟨⟨rest, rfl⟩, decimal, rfl⟩
    rw [dropped] at decimal ⊢
    exact ⟨rfl, List.all_eq_true.mp decimal⟩
  · rintro ⟨rfl, decimal⟩
    have beginsWith : word.toList.isPrefixOf (word.toList ++ digits) = true := by simp
    simp only [digitsAfter?, beginsWith, if_true, dropped, List.all_eq_true.mpr decimal]

theorem digitsAfter?_append (word : String)
    (decimal : ∀ character ∈ digits, Text.isDigit character = true) :
    digitsAfter? word (word.toList ++ digits) = some digits :=
  digitsAfter?_eq_some_iff.mpr ⟨rfl, decimal⟩

end Parts

end ContractClient.AbiType
