import ContractClient.Abi.Document
import ContractClient.Proofs.Abi.Reading

/-!
# Types in interface documents

An interface document gives a type by a text and, beside it, by components. The text of a tuple is
the word `tuple`, its components are a list of dictionaries that give a type in the same way, and
arrays add their suffixes to the text of their items (`AbiType.documentSpelling`).
`AbiType.IsListedBy` says that a value lists the components of a type, and `AbiType.IsGivenBy` that
a dictionary gives the type.

A type that can be built is read back from what gives it (`AbiType.ofDocument_of_isListedBy`), and
so is the parameter of that type (`ParamEntry.read_of_isGivenBy`).
-/

namespace ContractClient

/-- A field of a dictionary; a value that has no such field counts as having nothing in it. -/
def Value.fieldOf (item : Value) (key : String) : Value :=
  (Dict.get? item.entries key).getD .null

/-- A dictionary whose name and flag, if it has them, can be read. -/
def Value.IsLabelled (item : Value) : Prop :=
  ∃ entries name indexed, item = .dict entries ∧
    Schema.field entries "name" "" Schema.text = .valid name ∧
    Schema.field entries "indexed" false Schema.flag = .valid indexed

namespace AbiType

/-- The text of a type in a document. -/
def documentSpelling : AbiType → List Char
  | fixedArray item length => documentSpelling item ++ '[' :: (Nat.toDigits 10 length ++ [']'])
  | array item => documentSpelling item ++ ['[', ']']
  | tuple _ => "tuple".toList
  | type => type.spelling

mutual

/-- A value that stands beside the text of a type in a document: it lists the components, or is
missing where there are none. -/
def IsListedBy (components : Value) : AbiType → Prop
  | fixedArray item _ => IsListedBy components item
  | array item => IsListedBy components item
  | tuple types => ∃ items, components.items? = some items ∧ AreGivenBy items types
  | _ => components = .null

/-- Several dictionaries that give one type each. -/
def AreGivenBy : List Value → List AbiType → Prop
  | [], [] => True
  | item :: items, type :: types =>
    (item.IsLabelled ∧ item.fieldOf "type" = .text (String.ofList type.documentSpelling) ∧
      IsListedBy (item.fieldOf "components") type) ∧ AreGivenBy items types
  | _, _ => False

end

/-- A dictionary that gives a type. -/
def IsGivenBy (item : Value) (type : AbiType) : Prop :=
  item.IsLabelled ∧ item.fieldOf "type" = .text (String.ofList type.documentSpelling) ∧
    IsListedBy (item.fieldOf "components") type

theorem areGivenBy_iff {items : List Value} {types : List AbiType} :
    AreGivenBy items types ↔ List.Forall₂ IsGivenBy items types := by
  induction items generalizing types with
  | nil => cases types <;> simp [AreGivenBy]
  | cons item items ih => cases types <;> simp [AreGivenBy, ih, IsGivenBy]

section Reading

variable {components : Value} {type : AbiType} {types : List AbiType} {items : List Value}

/-- What the word `tuple` stands for beside the given components. -/
def tupleOfComponents (components : Value) (source : String) : Outcome AbiType :=
  match components with
  | .null => withoutComponents source
  | .list items => items.mapM ofComponent >>= tupleOf
  | .tuple items => items.mapM ofComponent >>= tupleOf
  | .sequence _ _ items => items.mapM ofComponent >>= tupleOf
  | other => do
    match ← other.elements with
    | [] => tupleOf []
    | _ => Outcome.condition .missingMember

theorem ofDocument_text (text : String) :
    ofDocument (.text text) components = ofText (tupleOfComponents components) text.toList := by
  rw [ofDocument]
  congr 1
  funext source
  cases components with
  | list items | tuple items | sequence _ _ items =>
      simp only [tupleOfComponents]
      rw [List.mapM_subtype (g := ofComponent) (fun _ _ => rfl), List.unattach_attach]
  | _ => rfl

theorem tupleOfComponents_of_items? {source : String} (listed : components.items? = some items) :
    tupleOfComponents components source = items.mapM ofComponent >>= tupleOf := by
  cases components with
  | list | tuple | sequence =>
      cases listed
      rfl
  | _ => cases listed

theorem ofComponent_of_fields {item : Value} {text : String}
    (labelled : item.IsLabelled) (field : item.fieldOf "type" = .text text) :
    ofComponent item = ofDocument (.text text) (item.fieldOf "components") := by
  rcases labelled with ⟨entries, _, _, rfl, _⟩
  have found : Dict.get? entries "type" = some (.text text) := by
    cases given : Dict.get? entries "type" with
    | none => simp [Value.fieldOf, Value.entries, given] at field
    | some value => simpa [Value.fieldOf, Value.entries, given] using field
  rw [ofComponent]
  simp only [found, Option.getD_some, Value.fieldOf, Value.entries]
  split
  · next nested given => simp [given]
  · next given => simp [given]

theorem isVisible_of_mem_documentSpelling (type : AbiType) :
    ∀ character ∈ type.documentSpelling, Text.IsVisible character := by
  induction type with
  | fixedArray item length ih => exact isVisible_of_mem_suffix length ih
  | array item ih => exact List.forall_mem_append.mpr ⟨ih, Text.isVisible_of_all (by decide)⟩
  | tuple components _ =>
      change ∀ character ∈ "tuple".toList, Text.IsVisible character
      exact Text.isVisible_of_all (by decide)
  | uint | int | address | bool | fixedBytes | bytes | string =>
      exact isVisible_of_mem_spelling _

theorem documentSpelling_of_isElementary (atomic : type.IsElementary) :
    type.documentSpelling = type.spelling := by
  cases type with
  | fixedArray item length | array item | tuple components => exact atomic.elim
  | _ => rfl

theorem ofText_documentSpelling (constructed : type.Constructed)
    (listed : IsListedBy components type) :
    ofText (tupleOfComponents components) type.documentSpelling = .ok type := by
  induction constructed using Constructed.byParts generalizing components with
  | elementary type constructed atomic =>
      rw [documentSpelling_of_isElementary atomic]
      exact ofText_elementary atomic constructed.wellFormed
  | fixedArray item number _ _ short built ih =>
      rw [documentSpelling, ofText_append_length (isVisible_of_mem_documentSpelling item) short
        (ih listed), built]
  | array item _ _ built ih =>
      rw [documentSpelling, ofText_append_brackets (isVisible_of_mem_documentSpelling item)
        (ih listed), built]
  | tuple types _ _ built ih =>
      rcases listed with ⟨items, listed, given⟩
      have read : items.mapM ofComponent = .ok types := by
        rw [areGivenBy_iff, List.forall₂_iff_zip] at given
        rw [Outcome.mapM_eq_ok_iff, List.forall₂_iff_zip]
        refine ⟨given.1, fun {item type} member => ?_⟩
        rcases given.2 member with ⟨labelled, field, itemListed⟩
        rw [ofComponent_of_fields labelled field, ofDocument_text, String.toList_ofList]
        exact ih type (List.of_mem_zip member).2 itemListed
      rw [documentSpelling, ofText_word, tupleOfComponents_of_items? listed, read]
      exact built

/-- Whatever can be built is read back from the form that documents give it. -/
theorem ofDocument_of_isListedBy (constructed : type.Constructed)
    (listed : IsListedBy components type) :
    ofDocument (.text (String.ofList type.documentSpelling)) components = .ok type := by
  rw [ofDocument_text, String.toList_ofList]
  exact ofText_documentSpelling constructed listed

end Reading

end AbiType

namespace ParamEntry

variable {item components : Value} {type : AbiType} {types : List AbiType} {items : List Value}

/-- Reads the components beside the text of a type. -/
def readListed : Value → Checked (Option (List ParamEntry))
  | .null => .valid none
  | .list items => ((readAll 0 items).map some).under (.field "components")
  | .tuple items => ((readAll 0 items).map some).under (.field "components")
  | .sequence _ _ items => ((readAll 0 items).map some).under (.field "components")
  | _ => (Checked.issue .listType).under (.field "components")

theorem readComponents_eq (entries : Dict) :
    readComponents entries = readListed ((Value.dict entries).fieldOf "components") := by
  induction entries with
  | nil => rfl
  | cons entry entries ih =>
      rcases entry with ⟨key, value⟩
      by_cases found : key = "components"
      · have first : (Value.dict ((key, value) :: entries)).fieldOf "components" = value := by
          simp [Value.fieldOf, Value.entries, Dict.get?, found]
        rw [first]
        cases value <;> simp [readComponents, readListed, found]
      · have other : (Value.dict ((key, value) :: entries)).fieldOf "components" =
            (Value.dict entries).fieldOf "components" := by
          simp [Value.fieldOf, Value.entries, Dict.get?, found]
        rw [other, ← ih]
        cases value <;> simp [readComponents, found]

theorem read_of_fields {type : AbiType} (given : type.IsGivenBy item)
    (readable : ∀ {components}, type.IsListedBy components →
      ∃ params, readListed components = .valid params ∧
        type.IsListedBy (componentsValue params)) :
    ∃ entry, read item = .valid entry ∧ type.IsGivenBy entry.toValue := by
  rcases given with ⟨⟨entries, name, indexed, rfl, readName, readIndexed⟩, field, listed⟩
  rcases readable listed with ⟨params, readParams, listedAgain⟩
  have typeText : Schema.required entries "type" Schema.text =
      .valid (String.ofList type.documentSpelling) := by
    cases found : Dict.get? entries "type" with
    | none => simp [Value.fieldOf, Value.entries, found] at field
    | some value =>
        have text : value = .text (String.ofList type.documentSpelling) := by
          simpa [Value.fieldOf, Value.entries, found] using field
        simp [Schema.required, found, text, Schema.text, Checked.under]
  refine ⟨mk name (String.ofList type.documentSpelling) indexed params, ?_, ?_⟩
  · rw [read, readName, typeText, readIndexed, readComponents_eq, readParams]
    rfl
  · exact ⟨⟨_, name, indexed, rfl, rfl, rfl⟩, rfl, listedAgain⟩

theorem readAll_of_areGivenBy (given : AbiType.AreGivenBy items types)
    (readable : ∀ type ∈ types, ∀ {components}, type.IsListedBy components →
      ∃ params, readListed components = .valid params ∧
        type.IsListedBy (componentsValue params)) (position : Nat) :
    ∃ params, readAll position items = .valid params ∧
      AbiType.AreGivenBy (toValues params) types := by
  induction items generalizing types position with
  | nil =>
      cases types with
      | nil => exact ⟨[], rfl, trivial⟩
      | cons type types => exact given.elim
  | cons item items ih =>
      cases types with
      | nil => exact given.elim
      | cons type types =>
          rw [List.forall_mem_cons] at readable
          rcases read_of_fields given.1 readable.1 with ⟨entry, readFirst, first⟩
          rcases ih given.2 readable.2 (position + 1) with ⟨others, readOthers, rest⟩
          refine ⟨entry :: others, ?_, first, rest⟩
          rw [readAll, readFirst, readOthers]
          rfl

theorem readListed_of_isListedBy (listed : type.IsListedBy components) :
    ∃ params, readListed components = .valid params ∧
      type.IsListedBy (componentsValue params) := by
  induction type generalizing components with
  | fixedArray item length ih => exact ih listed
  | array item ih => exact ih listed
  | tuple types ih =>
      rcases listed with ⟨items, listed, given⟩
      have readable := fun type member {components} => @ih type member components
      rcases readAll_of_areGivenBy given readable 0 with ⟨params, readParams, givenAgain⟩
      refine ⟨some params, ?_, toValues params, rfl, givenAgain⟩
      cases components with
      | list | tuple | sequence =>
          cases listed
          rw [readListed, readParams]
          rfl
      | _ => cases listed
  | _ =>
      cases listed
      exact ⟨none, rfl, rfl⟩

/-- The parameter of a type that can be built is read from a dictionary that gives the type. -/
theorem read_of_isGivenBy (constructed : type.Constructed) (given : type.IsGivenBy item) :
    ∃ entry param, read item = .valid entry ∧ entry.toParam = .ok param ∧ param.type = type := by
  rcases read_of_fields given readListed_of_isListedBy with ⟨entry, readEntry, givenAgain⟩
  rcases entry with ⟨name, text, indexed, params⟩
  rcases givenAgain with ⟨_, field, listed⟩
  have written : text = String.ofList type.documentSpelling := by
    simpa [Value.fieldOf, Value.entries, toValue, Dict.get?] using field
  have readType : AbiType.ofDocument (.text text) (componentsValue params) = .ok type := by
    rw [written]
    exact AbiType.ofDocument_of_isListedBy constructed listed
  exact ⟨_, { name, indexed, type }, readEntry, by rw [toParam, readType]; rfl, rfl⟩

end ParamEntry

end ContractClient
