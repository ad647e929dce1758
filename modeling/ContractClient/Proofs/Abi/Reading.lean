import ContractClient.Proofs.Abi.Spelling

/-!
# Types are read back from their texts

Whatever was built from its parts is read back from its canonical text (`AbiType.ofText_spelling`),
and from the form that interface documents give it (`AbiType.Describes.ofDocument_eq`): the word
`tuple` with the components beside it, at any depth, and the suffixes of arrays after it.
-/

namespace ContractClient

namespace AbiType

section Building

variable {item type : AbiType}

theorem fixedBytesOf_inv {size : Value} (built : fixedBytesOf size = .ok type) :
    ∃ number, type = .fixedBytes number := by
  cases size with
  | int number =>
      by_cases found : 1 ≤ number ∧ number ≤ Bytes.wordLength
      · simp only [fixedBytesOf, found, and_self, if_true, Outcome.pure_eq_ok,
          Except.ok.injEq] at built
        exact ⟨number.toNat, built.symm⟩
      · simp only [fixedBytesOf, found, if_false] at built
        exact absurd built (refusal_ne_ok _ _ _ _)
  | _ =>
      simp only [fixedBytesOf] at built
      exact absurd built (refusal_ne_ok _ _ _ _)

theorem fixedArrayOf_inv {length : Value} (built : fixedArrayOf item length = .ok type) :
    ∃ number : Nat, length = .int number ∧ number < 10 ^ Text.digitLimit ∧
      type = .fixedArray item number := by
  rcases Outcome.bind_eq_ok_iff.mp built with ⟨text, shown, built⟩
  cases length with
  | int number =>
      by_cases positive : 0 < number
      · simp only [positive, if_true, Outcome.bind_eq_ok_iff] at built
        rcases built with ⟨_, _, built⟩
        simp only [Outcome.pure_eq_ok, Except.ok.injEq] at built
        have short : number.natAbs < 10 ^ Text.digitLimit := by
          by_contra long
          simp [Value.displayed, Value.isShowable, long] at shown
        exact ⟨number.toNat, by rw [Int.toNat_of_nonneg (by omega)], by omega, built.symm⟩
      · simp [positive, malformed] at built
  | _ => simp [malformed] at built

theorem arrayOf_inv (built : arrayOf item = .ok type) : type = .array item := by
  rcases Outcome.bind_eq_ok_iff.mp built with ⟨_, _, built⟩
  simp only [Outcome.pure_eq_ok, Except.ok.injEq] at built
  exact built.symm

theorem tupleOf_inv {components : List AbiType} (built : tupleOf components = .ok type) :
    type = .tuple components := by
  cases empty : components.any isEmptyTuple with
  | true => simp [tupleOf, empty, malformed] at built
  | false =>
      simp only [tupleOf, empty, Bool.false_eq_true, if_false, Except.ok.injEq] at built
      exact built.symm

/-- Induction over what can be built, with the call that builds each array and each tuple. -/
@[elab_as_elim]
theorem Constructed.byParts {motive : (type : AbiType) → type.Constructed → Prop}
    (elementary : ∀ type (constructed : Constructed type), type.IsElementary →
      motive type constructed)
    (fixedArray : ∀ item number (inner : Constructed item)
      (constructed : Constructed (.fixedArray item number)), number < 10 ^ Text.digitLimit →
      fixedArrayOf item (.int number) = .ok (.fixedArray item number) → motive item inner →
      motive (.fixedArray item number) constructed)
    (array : ∀ item (inner : Constructed item) (constructed : Constructed (.array item)),
      arrayOf item = .ok (.array item) → motive item inner → motive (.array item) constructed)
    (tuple : ∀ components (inner : ∀ component ∈ components, Constructed component)
      (constructed : Constructed (.tuple components)),
      tupleOf components = .ok (.tuple components) →
      (∀ component member, motive component (inner component member)) →
      motive (.tuple components) constructed)
    (constructed : type.Constructed) : motive type constructed := by
  induction constructed with
  | uint bits built =>
      have constructed := Constructed.uint bits built
      rcases Outcome.bind_eq_ok_iff.mp built with ⟨width, _, rebuilt⟩
      cases rebuilt
      exact elementary _ constructed trivial
  | int bits built =>
      have constructed := Constructed.int bits built
      rcases Outcome.bind_eq_ok_iff.mp built with ⟨width, _, rebuilt⟩
      cases rebuilt
      exact elementary _ constructed trivial
  | fixedBytes size built =>
      have constructed := Constructed.fixedBytes size built
      rcases fixedBytesOf_inv built with ⟨number, rfl⟩
      exact elementary _ constructed trivial
  | address => exact elementary _ .address trivial
  | bool => exact elementary _ .bool trivial
  | bytes => exact elementary _ .bytes trivial
  | string => exact elementary _ .string trivial
  | fixedArray length inner built ih =>
      have constructed := Constructed.fixedArray length inner built
      rcases fixedArrayOf_inv built with ⟨number, rfl, short, rfl⟩
      exact fixedArray _ number inner constructed short built ih
  | array inner built ih =>
      have constructed := Constructed.array inner built
      cases arrayOf_inv built
      exact array _ inner constructed built ih
  | tuple inner built ih =>
      have constructed := Constructed.tuple inner built
      cases tupleOf_inv built
      exact tuple _ inner constructed built ih

end Building

section Reading

variable {tupleType : String → Outcome AbiType} {characters text digits : List Char}
  (stripped : Text.strip characters = text)

include stripped

theorem ofText_eq_of_suffix {base : List Char} (suffix : arraySuffix? text = some (base, digits)) :
    ofText tupleType characters = (do
      let item ← ofText tupleType base
      if digits.isEmpty then arrayOf item
      else fixedArrayOf item (← numberOf digits)) := by
  have nonempty : text.isEmpty = false := by
    cases text with
    | nil => simp [arraySuffix?] at suffix
    | cons => rfl
  rw [ofText]
  simp only [stripped, nonempty, Bool.false_eq_true, if_false]
  split
  · next found =>
      rw [stripped, suffix] at found
      cases found
      rfl
  · next found => simp [stripped, suffix] at found

theorem ofText_eq_of_group {inner : List Char} (noSuffix : arraySuffix? text = none)
    (group : groupContent? text = some inner) :
    ofText tupleType characters =
      if inner.isEmpty then .ok (.tuple [])
      else match splitTopLevel inner with
        | none => malformed (String.ofList inner) "unbalanced parentheses"
        | some members => members.mapM (ofText withoutComponents) >>= tupleOf := by
  have nonempty : text.isEmpty = false := by
    cases text with
    | nil => simp [groupContent?] at group
    | cons => rfl
  have notWord : text ≠ "tuple".toList := by
    rintro rfl
    simp [groupContent?] at group
  rw [ofText]
  simp only [stripped, nonempty, notWord, Bool.false_eq_true, if_false]
  split
  · next found => simp [stripped, noSuffix] at found
  · split
    · next found =>
        rw [stripped, group] at found
        cases found
        congr 1
        split
        · next parts => rw [parts]
        · next parts =>
            simp only [parts]
            rw [List.mapM_subtype (g := ofText withoutComponents) (fun _ _ => rfl),
              List.unattach_attach]
    · next found => simp [stripped, group] at found

theorem ofText_eq_elementary (nonempty : text ≠ []) (noSuffix : arraySuffix? text = none)
    (notWord : text ≠ "tuple".toList) (noGroup : groupContent? text = none) :
    ofText tupleType characters = elementary (String.ofList characters) text := by
  have nonemptyText : text.isEmpty = false := by simpa using nonempty
  rw [ofText]
  simp only [stripped, nonemptyText, notWord, Bool.false_eq_true, if_false]
  split
  · next found => simp [stripped, noSuffix] at found
  · split
    · next found => simp [stripped, noGroup] at found
    · rfl

omit stripped in
theorem ofText_eq_of_word (stripped : Text.strip characters = "tuple".toList) :
    ofText tupleType characters = tupleType (String.ofList characters) := by
  have noSuffix : arraySuffix? "tuple".toList = none := by decide
  rw [ofText]
  simp only [stripped, if_true]
  split
  · next empty => simp at empty
  · split
    · next found =>
        rw [stripped, noSuffix] at found
        exact absurd found (by simp)
    · rfl

omit stripped in
theorem ofText_word : ofText tupleType "tuple".toList = tupleType "tuple" :=
  ofText_eq_of_word (Text.strip_of_visible (Text.isVisible_of_all (by decide)))

end Reading

section Canonical

variable {number : Nat}

theorem numberOf_toDigits (short : number < 10 ^ Text.digitLimit) :
    numberOf (Nat.toDigits 10 number) = .ok (.int number) := by
  rw [numberOf, Text.integer?_toDigits short]

theorem numberOf_toDigits_of_le (small : number ≤ 256) :
    numberOf (Nat.toDigits 10 number) = .ok (.int number) := by
  apply numberOf_toDigits
  calc number < 10 ^ 3 := by omega
    _ ≤ 10 ^ Text.digitLimit := Nat.pow_le_pow_right (by decide) (by decide)

theorem isDecimal_of_mem_toDigits (number : Nat) :
    ∀ character ∈ Nat.toDigits 10 number, Text.isDigit character = true :=
  fun character member => Text.isDigit_of_decimal (isDigit_of_mem_toDigits character member)

/-- The words that the types with a size begin with, and how each of these types is built. -/
def sizedTypes : List (String × (Value → Outcome AbiType)) :=
  [("uint", uintOf), ("int", intOf), ("bytes", fixedBytesOf)]

theorem uint_sized : ("uint", uintOf) ∈ sizedTypes := by
  simp [sizedTypes]

theorem int_sized : ("int", intOf) ∈ sizedTypes := by
  simp [sizedTypes]

theorem bytes_sized : ("bytes", fixedBytesOf) ∈ sizedTypes := by
  simp [sizedTypes]

theorem elementary_sized {source word : String} {build : Value → Outcome AbiType}
    {digits : List Char} (sized : (word, build) ∈ sizedTypes) (nonempty : digits ≠ [])
    (decimal : ∀ character ∈ digits, Text.isDigit character = true) :
    elementary source (word.toList ++ digits) = numberOf digits >>= build := by
  have uint := digitsAfter?_append "uint" decimal
  have int := digitsAfter?_append "int" decimal
  have bytes := digitsAfter?_append "bytes" decimal
  cases digits with
  | nil => exact absurd rfl nonempty
  | cons first rest =>
      simp only [sizedTypes, List.mem_cons, List.not_mem_nil, or_false, Prod.mk.injEq] at sized
      rcases sized with ⟨rfl, rfl⟩ | ⟨rfl, rfl⟩ | ⟨rfl, rfl⟩
      · simp at uint
        simp [elementary, uint]
      · simp at int
        have notUint : digitsAfter? "uint" ('i' :: 'n' :: 't' :: first :: rest) = none := by
          simp [digitsAfter?]
        simp [elementary, notUint, int]
      · simp at bytes
        have notUint : digitsAfter? "uint" ('b' :: 'y' :: 't' :: 'e' :: 's' :: first :: rest) =
            none := by
          simp [digitsAfter?]
        have notInt : digitsAfter? "int" ('b' :: 'y' :: 't' :: 'e' :: 's' :: first :: rest) =
            none := by
          simp [digitsAfter?]
        simp [elementary, notUint, notInt, bytes]

/-- A text that begins with the word of a type with a size is that type. -/
theorem ofText_sized {tupleType : String → Outcome AbiType} {word : String}
    {build : Value → Outcome AbiType} {characters digits : List Char}
    (sized : (word, build) ∈ sizedTypes)
    (stripped : Text.strip characters = word.toList ++ digits) (nonempty : digits ≠ [])
    (decimal : ∀ character ∈ digits, Text.isDigit character = true) :
    ofText tupleType characters = numberOf digits >>= build := by
  have noSuffix : arraySuffix? (word.toList ++ digits) = none := by
    rw [← List.dropLast_concat_getLast nonempty, ← List.append_assoc]
    apply arraySuffix?_eq_none
    intro bracket
    have lastDigit := decimal _ (List.getLast_mem nonempty)
    rw [bracket] at lastDigit
    exact absurd lastDigit (by decide)
  have ofWord : word.toList ++ digits ≠ "tuple".toList ∧
      groupContent? (word.toList ++ digits) = none := by
    simp only [sizedTypes, List.mem_cons, List.not_mem_nil, or_false, Prod.mk.injEq] at sized
    rcases sized with ⟨rfl, -⟩ | ⟨rfl, -⟩ | ⟨rfl, -⟩ <;> exact ⟨by simp, rfl⟩
  rw [ofText_eq_elementary stripped (by simp [nonempty]) noSuffix ofWord.1 ofWord.2,
    elementary_sized sized nonempty decimal]

theorem elementary_toDigits {source word : String} {build : Value → Outcome AbiType}
    (sized : (word, build) ∈ sizedTypes) (small : number ≤ 256) :
    elementary source (word.toList ++ Nat.toDigits 10 number) = build (.int number) := by
  rw [elementary_sized sized Nat.toDigits_ne_nil (isDecimal_of_mem_toDigits number),
    numberOf_toDigits_of_le small, Outcome.ok_bind]

theorem elementary_uint {source : String} (width : IsWidth number) :
    elementary source ("uint".toList ++ Nat.toDigits 10 number) = .ok (.uint number) := by
  rw [elementary_toDigits uint_sized width.2.2]
  simp [uintOf, widthOf, width]

theorem elementary_int {source : String} (width : IsWidth number) :
    elementary source ("int".toList ++ Nat.toDigits 10 number) = .ok (.int number) := by
  rw [elementary_toDigits int_sized width.2.2]
  simp [intOf, widthOf, width]

theorem elementary_fixedBytes {source : String} (size : 1 ≤ number ∧ number ≤ Bytes.wordLength) :
    elementary source ("bytes".toList ++ Nat.toDigits 10 number) = .ok (.fixedBytes number) := by
  have inWord : 1 ≤ (number : Int) ∧ (number : Int) ≤ Bytes.wordLength := by omega
  rw [elementary_toDigits bytes_sized (Nat.le_trans size.2 (by decide))]
  simp [fixedBytesOf, inWord]

theorem elementary_spelling {type : AbiType} {source : String} (atomic : type.IsElementary)
    (wellFormed : type.WellFormed) : elementary source type.spelling = .ok type := by
  cases type with
  | uint bits => exact elementary_uint wellFormed
  | int bits => exact elementary_int wellFormed
  | fixedBytes size => exact elementary_fixedBytes wellFormed
  | address | bool | bytes | string => rfl
  | fixedArray item length | array item | tuple components => exact atomic.elim

variable {tupleType : String → Outcome AbiType} {text : List Char} {item type : AbiType}

theorem isVisible_of_mem_suffix (number : Nat)
    (visible : ∀ character ∈ text, Text.IsVisible character) :
    ∀ character ∈ text ++ '[' :: (Nat.toDigits 10 number ++ [']']), Text.IsVisible character := by
  simp only [List.forall_mem_append, List.forall_mem_cons]
  exact ⟨visible, by decide, isVisible_of_mem_toDigits, by decide, List.forall_mem_nil _⟩

theorem not_mem_of_isVisible (visible : ∀ character ∈ text, Text.IsVisible character) :
    '\n' ∉ text :=
  fun member => absurd (visible '\n' member) (by decide)

theorem ofText_append_length (visible : ∀ character ∈ text, Text.IsVisible character)
    (short : number < 10 ^ Text.digitLimit) (read : ofText tupleType text = .ok item) :
    ofText tupleType (text ++ '[' :: (Nat.toDigits 10 number ++ [']'])) =
      fixedArrayOf item (.int number) := by
  have solid := Text.strip_of_visible (isVisible_of_mem_suffix number visible)
  have suffix := arraySuffix?_append (isDecimal_of_mem_toDigits number)
    (not_mem_of_isVisible visible)
  have nonempty : (Nat.toDigits 10 number).isEmpty = false := by simp
  rw [ofText_eq_of_suffix solid suffix, read]
  simp [nonempty, numberOf_toDigits short]

theorem ofText_append_brackets (visible : ∀ character ∈ text, Text.IsVisible character)
    (read : ofText tupleType text = .ok item) :
    ofText tupleType (text ++ ['[', ']']) = arrayOf item := by
  have visibleAll : ∀ character ∈ text ++ ['[', ']'], Text.IsVisible character :=
    List.forall_mem_append.mpr ⟨visible, Text.isVisible_of_all (by decide)⟩
  have suffix := @arraySuffix?_append text [] (by simp) (not_mem_of_isVisible visible)
  rw [ofText_eq_of_suffix (Text.strip_of_visible visibleAll) suffix, read]
  rfl

theorem ofText_group {types : List AbiType}
    (each : ∀ type ∈ types, ofText withoutComponents type.spelling = .ok type) :
    ofText tupleType (spelling (.tuple types)) = tupleOf types := by
  have solid := Text.strip_of_visible (isVisible_of_mem_spelling (.tuple types))
  have noSuffix : arraySuffix? (spelling (.tuple types)) = none :=
    @arraySuffix?_eq_none ('(' :: spellings types) ')' (by decide)
  have group : groupContent? (spelling (.tuple types)) = some (spellings types) :=
    groupContent?_group
  by_cases empty : types = []
  · subst empty
    rw [ofText_eq_of_group solid noSuffix group]
    rfl
  · have nonempty : (spellings types).isEmpty = false := by simpa using spellings_ne_nil empty
    have members : (types.map spelling).mapM (ofText withoutComponents) = .ok types := by
      rw [Outcome.mapM_eq_ok_iff, List.forall₂_map_left_iff, List.forall₂_same]
      exact each
    rw [ofText_eq_of_group solid noSuffix group, splitTopLevel_spellings empty]
    simp [nonempty, members]

theorem ofText_elementary (atomic : type.IsElementary) (wellFormed : type.WellFormed) :
    ofText tupleType type.spelling = .ok type := by
  have alphanumeric := isAlphanum_of_mem_spelling atomic
  have absent : ∀ character, character.isAlphanum = false → character ∉ type.spelling := by
    intro character notAlphanumeric member
    simp [alphanumeric character member] at notAlphanumeric
  have notWord : type.spelling ≠ "tuple".toList := by
    intro written
    have refused : elementary "" type.spelling = .ok type :=
      elementary_spelling atomic wellFormed
    rw [written] at refused
    simp [elementary, digitsAfter?, malformed] at refused
  have noSuffix : arraySuffix? type.spelling = none := by
    rw [← List.dropLast_concat_getLast (spelling_ne_nil type)]
    apply arraySuffix?_eq_none
    intro bracket
    apply absent ']' (by decide)
    rw [← bracket]
    exact List.getLast_mem _
  rw [ofText_eq_elementary (Text.strip_of_visible (isVisible_of_mem_spelling type))
    (spelling_ne_nil type) noSuffix notWord (groupContent?_eq_none (absent '(' (by decide)))]
  exact elementary_spelling atomic wellFormed

/-- Whatever can be built is read back from its canonical text. -/
theorem ofText_spelling (constructed : type.Constructed) :
    ofText tupleType type.spelling = .ok type := by
  induction constructed using Constructed.byParts generalizing tupleType with
  | elementary type constructed atomic => exact ofText_elementary atomic constructed.wellFormed
  | fixedArray item number _ _ short built ih =>
      rw [spelling_fixedArray, ofText_append_length (isVisible_of_mem_spelling item) short ih,
        built]
  | array item _ _ built ih =>
      rw [spelling_array, ofText_append_brackets (isVisible_of_mem_spelling item) ih, built]
  | tuple components _ _ built ih =>
      rw [ofText_group fun component member => ih component member, built]

end Canonical

end AbiType

end ContractClient
