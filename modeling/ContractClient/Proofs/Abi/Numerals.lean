import ContractClient.Proofs.Abi.Document
import ContractClient.Proofs.Json.Reader

/-!
# Numerals in types

The width of an elementary type and the length of an array are written as numerals. One with more
digits than are converted between texts and integers is no number, and whoever reads it meets the
condition `badValue`. `AbiType.MeetsLongNumeral` says where that happens: at the first numeral that
is too long, if everything that is read before it can be read.

Reading a type ends in one of three ways (`AbiType.settles_ofParts`): with a type, with a fault of
the document, or with that condition, and with the condition exactly if it meets such a numeral
(`AbiType.MeetsLongNumeral.ofParts_eq`).
-/

namespace ContractClient

/-- Reading ends with a result, with a fault of what is read, or at a numeral that is too long. -/
inductive Settles (long : Prop) {α : Type} : Outcome α → Prop where
  | ok (result : α) : Settles long (.ok result)
  | refused {fault : Fault} (kind : fault.kind = .abiParse) : Settles long (Outcome.fault fault)
  | long (met : long) : Settles long (Outcome.condition .badValue)

namespace Settles

variable {α β : Type} {long other : Prop} {outcome : Outcome α}

theorem mono (settles : Settles long outcome) (weaker : long → other) : Settles other outcome := by
  cases settles with
  | ok result => exact .ok result
  | refused kind => exact .refused kind
  | long met => exact .long (weaker met)

theorem bind {next : α → Outcome β} (settles : Settles long outcome)
    (after : ∀ result, outcome = .ok result → Settles long (next result)) :
    Settles long (outcome >>= next) := by
  cases settles with
  | ok result => exact after result rfl
  | refused kind => exact .refused kind
  | long met => exact .long met

/-- A list settles if every item does that is reached: those before it have results. -/
theorem mapM {read : α → Outcome β} {items : List α}
    (each : ∀ earlier item later results, items = earlier ++ item :: later →
      earlier.mapM read = .ok results → Settles long (read item)) :
    Settles long (items.mapM read) := by
  induction items with
  | nil => exact .ok []
  | cons item items ih =>
      rw [List.mapM_cons]
      apply (each [] item items [] rfl rfl).bind
      intro result first
      refine Settles.bind (ih ?_) fun results _ => .ok _
      intro earlier item later results divided before
      apply each (_ :: earlier) item later (result :: results) (by rw [divided, List.cons_append])
      rw [List.mapM_cons, first, before]
      rfl

/-- A run over a list settles if every step does that is reached. -/
theorem foldlM {step : β → α → Outcome β} {start : β} {items : List α}
    (each : ∀ earlier item later state, items = earlier ++ item :: later →
      earlier.foldlM step start = .ok state → Settles long (step state item)) :
    Settles long (items.foldlM step start) := by
  induction items generalizing start with
  | nil => exact .ok start
  | cons item items ih =>
      rw [List.foldlM_cons]
      apply (each [] item items start rfl rfl).bind
      intro next first
      apply ih
      intro earlier item later state divided before
      apply each (_ :: earlier) item later state (by rw [divided, List.cons_append])
      rw [List.foldlM_cons, first]
      exact before

end Settles

theorem Fault.kind_abiParse {source : String} {reason : Option String} {details : Dict} :
    (Fault.abiParse source reason details).kind = .abiParse := by
  rw [Fault.abiParse]
  split <;> rfl

namespace AbiType

variable {long : Prop} {digits : List Char} {number : Int}

theorem settles_malformed {α : Type} {source reason : String} :
    Settles long (malformed source reason : Outcome α) :=
  .refused Fault.kind_abiParse

/-- More digits than are converted between texts and integers. -/
def IsLongNumeral (digits : List Char) : Prop :=
  (∀ character ∈ digits, Text.isDigit character = true) ∧ Text.digitLimit < digits.length

theorem IsLongNumeral.ne_nil (numeral : IsLongNumeral digits) : digits ≠ [] := by
  rintro rfl
  exact absurd numeral.2 (by decide)

theorem IsLongNumeral.numberOf_eq (numeral : IsLongNumeral digits) :
    numberOf digits = Outcome.condition .badValue := by
  rw [numberOf, Text.integer?_of_digits numeral.ne_nil numeral.1, if_pos numeral.2]

/-- A numeral of digits gives a number that can be shown, unless it is too long. -/
theorem settles_numberOf {β : Type} {build : Value → Outcome β} (nonempty : digits ≠ [])
    (decimal : ∀ character ∈ digits, Text.isDigit character = true)
    (met : IsLongNumeral digits → long)
    (built : ∀ number, (Value.int number).isShowable = true → Settles long (build (.int number))) :
    Settles long (numberOf digits >>= build) := by
  rw [numberOf]
  split
  · next number read =>
      apply built number
      simpa [Value.isShowable] using Text.natAbs_lt_of_integer? read
  · next unread =>
      apply Settles.long
      apply met
      refine ⟨decimal, ?_⟩
      by_contra short
      rw [Text.integer?_of_digits nonempty decimal, if_neg short] at unread
      cases unread

section Building

variable (showable : (Value.int number).isShowable = true)

include showable

theorem displayed_eq_ok : ∃ text, (Value.int number).displayed = .ok text :=
  ⟨_, if_pos showable⟩

theorem settles_widthOf {name : String} : Settles long (widthOf name (.int number)) := by
  rcases displayed_eq_ok showable with ⟨text, shown⟩
  rw [widthOf]
  split
  · exact .ok _
  · rw [shown]
    exact settles_malformed

theorem settles_sized {word : String} {build : Value → Outcome AbiType}
    (sized : (word, build) ∈ sizedTypes) : Settles long (build (.int number)) := by
  simp only [sizedTypes, List.mem_cons, List.not_mem_nil, or_false, Prod.mk.injEq] at sized
  rcases sized with ⟨-, rfl⟩ | ⟨-, rfl⟩ | ⟨-, rfl⟩
  · exact (settles_widthOf showable).bind fun _ _ => .ok _
  · exact (settles_widthOf showable).bind fun _ _ => .ok _
  · rcases displayed_eq_ok showable with ⟨text, shown⟩
    simp only [fixedBytesOf]
    split
    · exact .ok _
    · rw [shown]
      exact settles_malformed

omit showable in
theorem settles_checkItem {item : AbiType} {source : String} :
    Settles long (checkItem item source) := by
  rw [checkItem]
  split
  · exact settles_malformed
  · exact .ok ()

theorem settles_fixedArrayOf {item : AbiType} : Settles long (fixedArrayOf item (.int number)) := by
  rcases displayed_eq_ok showable with ⟨text, shown⟩
  rw [fixedArrayOf, shown, Outcome.ok_bind]
  simp only
  split
  · exact settles_checkItem.bind fun _ _ => .ok _
  · exact settles_malformed

end Building

theorem settles_arrayOf {item : AbiType} : Settles long (arrayOf item) :=
  settles_checkItem.bind fun _ _ => .ok _

theorem settles_tupleOf {components : List AbiType} : Settles long (tupleOf components) := by
  rw [tupleOf]
  split
  · exact settles_malformed
  · exact .ok _

/-- The name of an elementary type has a numeral only after one of the words for types with a
size. -/
theorem settles_elementary {source : String} {text : List Char}
    (met : ∀ word build digits, (word, build) ∈ sizedTypes → text = word.toList ++ digits →
      IsLongNumeral digits → long) : Settles long (elementary source text) := by
  have showable : (Value.int 256).isShowable = true := by
    have short : 256 < 10 ^ Text.digitLimit :=
      calc 256 < 10 ^ 3 := by decide
        _ ≤ 10 ^ Text.digitLimit := Nat.pow_le_pow_right (by decide) (by decide)
    simpa [Value.isShowable] using short
  have sized : ∀ {word build digits}, (word, build) ∈ sizedTypes → digits ≠ [] →
      digitsAfter? word text = some digits → Settles long (numberOf digits >>= build) := by
    intro word build digits listed nonempty found
    rcases digitsAfter?_eq_some_iff.mp found with ⟨written, decimal⟩
    exact settles_numberOf nonempty decimal (met word build digits listed written)
      fun number shown => settles_sized shown listed
  rw [elementary]
  split
  · exact .ok _
  split
  · exact .ok _
  split
  · exact .ok _
  split
  · exact .ok _
  next notBytes =>
    split
    · exact settles_sized showable uint_sized
    · next nonempty found => exact sized uint_sized nonempty found
    · exact settles_sized showable int_sized
    · next nonempty _ found => exact sized int_sized nonempty found
    · next digits _ _ found =>
        apply sized bytes_sized _ found
        rintro rfl
        exact notBytes (by simpa using (digitsAfter?_eq_some_iff.mp found).1)
    · exact settles_malformed

end AbiType

namespace ParamEntry

/-- The text of the type of a parameter. -/
def typeText : ParamEntry → List Char
  | mk _ type _ _ => type.toList

def components : ParamEntry → Option (List ParamEntry)
  | mk _ _ _ components => components

end ParamEntry

namespace AbiType

/-- Reads the text of a type beside the components that a parameter has. -/
def ofParts (components : Option (List ParamEntry)) (text : List Char) : Outcome AbiType :=
  ofText (tupleOfComponents (ParamEntry.componentsValue components)) text

end AbiType

namespace ParamEntry

variable {param : ParamEntry} {params : List ParamEntry}

def typeOf (param : ParamEntry) : Outcome AbiType :=
  AbiType.ofParts param.components param.typeText

theorem toValues_eq_map : toValues params = params.map toValue := by
  induction params with
  | nil => rfl
  | cons param params ih => rw [toValues, ih, List.map_cons]

theorem ofComponent_toValue : AbiType.ofComponent param.toValue = param.typeOf := by
  cases param with
  | mk name type indexed components =>
      have labelled : (mk name type indexed components).toValue.IsLabelled :=
        ⟨_, name, indexed, rfl, rfl, rfl⟩
      rw [AbiType.ofComponent_of_fields labelled rfl, AbiType.ofDocument_text]
      rfl

theorem toParam_eq : ∃ name indexed,
    param.toParam = param.typeOf >>= fun type => .ok { name, type, indexed } := by
  cases param with
  | mk name type indexed components =>
      refine ⟨name, indexed, ?_⟩
      rw [toParam, AbiType.ofDocument_text]
      rfl

end ParamEntry

namespace AbiType

variable {components : Option (List ParamEntry)} {params : List ParamEntry} {text : List Char}

theorem ofParts_none : ofParts none = ofText withoutComponents :=
  rfl

theorem tupleOfComponents_some {source : String} :
    tupleOfComponents (ParamEntry.componentsValue (some params)) source =
      params.mapM ParamEntry.typeOf >>= tupleOf := by
  rw [tupleOfComponents_of_items? rfl, ParamEntry.toValues_eq_map, List.mapM_map]
  congr 2
  funext param
  exact ParamEntry.ofComponent_toValue

/-- Reading a type meets a numeral that is too long, before anything else is wrong. -/
inductive MeetsLongNumeral : Option (List ParamEntry) → List Char → Prop where
  /-- The size of an elementary type. -/
  | size {components : Option (List ParamEntry)} {text digits : List Char} {word : String}
      {build : Value → Outcome AbiType} (sized : (word, build) ∈ sizedTypes)
      (stripped : Text.strip text = word.toList ++ digits) (numeral : IsLongNumeral digits) :
      MeetsLongNumeral components text
  /-- The length of an array, after the type of its items. -/
  | length {components : Option (List ParamEntry)} {text base digits : List Char} {item : AbiType}
      (suffix : arraySuffix? (Text.strip text) = some (base, digits))
      (readable : ofParts components base = .ok item) (numeral : IsLongNumeral digits) :
      MeetsLongNumeral components text
  | item {components : Option (List ParamEntry)} {text base digits : List Char}
      (suffix : arraySuffix? (Text.strip text) = some (base, digits))
      (inner : MeetsLongNumeral components base) : MeetsLongNumeral components text
  /-- A member of a list of types in parentheses, after those before it. -/
  | member {components : Option (List ParamEntry)} {text inside member : List Char}
      {earlier later : List (List Char)} {types : List AbiType}
      (group : groupContent? (Text.strip text) = some inside) (nonempty : inside ≠ [])
      (divided : splitTopLevel inside = some (earlier ++ member :: later))
      (readable : earlier.mapM (ofParts none) = .ok types)
      (inner : MeetsLongNumeral none member) : MeetsLongNumeral components text
  /-- A component that the word for tuples stands for, after those before it. -/
  | component {text : List Char} {earlier later : List ParamEntry} {param : ParamEntry}
      {types : List AbiType} (word : Text.strip text = "tuple".toList)
      (readable : earlier.mapM ParamEntry.typeOf = .ok types)
      (inner : MeetsLongNumeral param.components param.typeText) :
      MeetsLongNumeral (some (earlier ++ param :: later)) text

theorem MeetsLongNumeral.ofParts_eq (meets : MeetsLongNumeral components text) :
    ofParts components text = Outcome.condition .badValue := by
  induction meets with
  | size sized stripped numeral =>
      rw [ofParts, ofText_sized sized stripped numeral.ne_nil numeral.1, numeral.numberOf_eq]
      rfl
  | length suffix readable numeral =>
      rw [ofParts] at readable
      rw [ofParts, ofText_eq_of_suffix rfl suffix, readable]
      simp [numeral.ne_nil, numeral.numberOf_eq]
  | item suffix inner ih =>
      rw [ofParts] at ih
      rw [ofParts, ofText_eq_of_suffix rfl suffix, ih]
      rfl
  | member group nonempty divided readable inner ih =>
      rw [ofParts_none] at readable ih
      rw [ofParts, ofText_eq_of_group rfl (arraySuffix?_eq_none_of_group group) group, divided,
        if_neg (by simpa using nonempty)]
      simp only
      rw [Outcome.mapM_eq_error_of_first readable ih]
      rfl
  | component word readable inner ih =>
      rw [ofParts, ofText_eq_of_word word, tupleOfComponents_some,
        Outcome.mapM_eq_error_of_first readable ih]
      rfl

/-- The type of a parameter settles if the types of its components do. -/
theorem settles_ofText {tupleType : String → Outcome AbiType} {characters : List Char}
    (same : tupleType = tupleOfComponents (ParamEntry.componentsValue components))
    (each : ∀ params, components = some params → ∀ param ∈ params,
      Settles (MeetsLongNumeral param.components param.typeText) param.typeOf) :
    Settles (MeetsLongNumeral components characters) (ofText tupleType characters) := by
  -- The text decides the case. Only the word for tuples looks at the components; the members of a
  -- list in parentheses have none.
  fun_induction ofText tupleType characters generalizing components with
  | case1 => exact settles_malformed
  | case2 =>
      rename_i suffix ih
      -- The item is read before the length.
      apply ((ih same each).mono (.item suffix)).bind
      intro item read
      subst same
      split
      · exact settles_arrayOf
      · next someDigits =>
          apply settles_numberOf (by simpa using someDigits) (isDigit_of_arraySuffix? suffix)
          · exact .length suffix read
          · exact fun number shown => settles_fixedArrayOf shown
  | case3 =>
      rename_i word
      subst same
      cases components with
      | none => exact settles_malformed
      | some params =>
          rw [tupleOfComponents_some]
          apply Settles.bind _ fun types _ => settles_tupleOf
          apply Settles.mapM
          intro earlier param later types divided readable
          subst divided
          exact (each _ rfl param (by simp)).mono (.component word readable)
  | case4 => exact .ok _
  | case5 => exact settles_malformed
  | case6 =>
      rename_i inside group nonempty members divided ih
      apply Settles.bind _ fun types _ => settles_tupleOf
      rw [List.mapM_subtype (g := ofText withoutComponents) (fun _ _ => rfl), List.unattach_attach]
      apply Settles.mapM
      intro earlier member later types split readable
      subst split
      apply (@ih ⟨member, by simp⟩ none rfl (by simp)).mono
      exact .member group (by simpa using nonempty) divided readable
  | case7 =>
      apply settles_elementary
      intro word build digits sized written numeral
      exact .size sized written numeral

/-- Reading the type of a parameter ends with a type, with a fault of the document, or at a numeral
that is too long. -/
theorem settles_ofParts (components : Option (List ParamEntry)) (text : List Char) :
    Settles (MeetsLongNumeral components text) (ofParts components text) := by
  apply settles_ofText rfl
  intro params found param member
  exact settles_ofParts param.components param.typeText
termination_by sizeOf components
decreasing_by
  have smaller := List.sizeOf_lt_of_mem member
  cases param with
  | mk name type indexed nested =>
      subst found
      simp only [ParamEntry.mk.sizeOf_spec, Option.some.sizeOf_spec] at smaller ⊢
      simp only [ParamEntry.components]
      omega

end AbiType

end ContractClient
