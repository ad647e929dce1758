import ContractClient.Abi.Contract
import ContractClient.Proofs.Abi.Document

/-!
# Signatures are read back from their texts

A canonical signature determines the name and the types that it was written for, even if the name
has parentheses of its own (`canonicalSignature_injective`). A function that is read from a
canonical signature has the selector of the function that an interface document declares with the
same name and types.

`ContractFunction.IsDeclaredBy` describes the entry of such a document: its parameters and results
are given as `AbiType.IsGivenBy` says, and its other fields, if it has them, can be read.
-/

namespace ContractClient

section Texts

variable {name : String} {types : List AbiType}

theorem toList_canonicalSignature :
    (canonicalSignature name types).toList =
      name.toList ++ '(' :: (AbiType.spellings types ++ [')']) := by
  simp [canonicalSignature]

theorem nameOf_canonicalSignature (plain : '(' ∉ name.toList) :
    Declarations.nameOf (canonicalSignature name types) = name := by
  have before : ∀ character ∈ name.toList, (character != '(') = true := by
    intro character member
    have other : character ≠ '(' := by
      rintro rfl
      exact plain member
    simpa using other
  rw [Declarations.nameOf, toList_canonicalSignature, List.takeWhile_append_of_pos before]
  simp

theorem spellings_injective {first second : List AbiType}
    (firstConstructed : ∀ type ∈ first, type.Constructed)
    (secondConstructed : ∀ type ∈ second, type.Constructed)
    (same : AbiType.spellings first = AbiType.spellings second) : first = second := by
  have reread : ∀ {types : List AbiType}, (∀ type ∈ types, type.Constructed) →
      (types.map AbiType.spelling).mapM (AbiType.ofText AbiType.withoutComponents) =
        .ok types := by
    intro types constructed
    rw [Outcome.mapM_eq_ok_iff, List.forall₂_map_left_iff, List.forall₂_same]
    exact fun type member => AbiType.ofText_spelling (constructed type member)
  by_cases firstEmpty : first = []
  · by_contra different
    subst firstEmpty
    exact AbiType.spellings_ne_nil (Ne.symm different) same.symm
  · have secondNonempty : second ≠ [] := by
      rintro rfl
      exact AbiType.spellings_ne_nil firstEmpty same
    have parts : first.map AbiType.spelling = second.map AbiType.spelling := by
      have split := AbiType.splitTopLevel_spellings firstEmpty
      rw [same, AbiType.splitTopLevel_spellings secondNonempty] at split
      exact (Option.some.inj split).symm
    have readFirst := reread firstConstructed
    rw [parts, reread secondConstructed] at readFirst
    exact (Except.ok.inj readFirst).symm

/-- Where the lists of two signatures end together, they begin together. -/
theorem eq_nil_of_append_spellings {text : List Char} {first second : List AbiType}
    (same : '(' :: AbiType.spellings first = text ++ '(' :: AbiType.spellings second) :
    text = [] := by
  cases text with
  | nil => rfl
  | cons character text =>
      rw [List.cons_append, List.cons.injEq] at same
      exact absurd same.2 (AbiType.spellings_ne_of_open first second text)

/-- A canonical signature determines its name, even if the name has parentheses. -/
theorem name_eq_of_canonicalSignature_eq {firstName secondName : String}
    {firstTypes secondTypes : List AbiType}
    (same : canonicalSignature firstName firstTypes =
      canonicalSignature secondName secondTypes) : firstName = secondName := by
  have texts := congrArg String.toList same
  rw [toList_canonicalSignature, toList_canonicalSignature, ← List.cons_append,
    ← List.cons_append, ← List.append_assoc, ← List.append_assoc, List.append_cancel_right_eq,
    List.append_eq_append_iff] at texts
  rw [← String.toList_inj]
  -- One of the names goes on where the other ends, with a list of types that does not end.
  rcases texts with ⟨rest, split, lists⟩ | ⟨rest, split, lists⟩
  · rw [split, eq_nil_of_append_spellings lists, List.append_nil]
  · rw [split, eq_nil_of_append_spellings lists, List.append_nil]

theorem canonicalSignature_injective {firstName secondName : String}
    {firstTypes secondTypes : List AbiType}
    (firstConstructed : ∀ type ∈ firstTypes, type.Constructed)
    (secondConstructed : ∀ type ∈ secondTypes, type.Constructed)
    (same : canonicalSignature firstName firstTypes =
      canonicalSignature secondName secondTypes) :
    firstName = secondName ∧ firstTypes = secondTypes := by
  have names := name_eq_of_canonicalSignature_eq same
  subst names
  have texts := congrArg String.toList same
  rw [toList_canonicalSignature, toList_canonicalSignature, List.append_cancel_left_eq,
    List.cons.injEq, List.append_cancel_right_eq] at texts
  exact ⟨rfl, spellings_injective firstConstructed secondConstructed texts.2⟩

end Texts

namespace ContractFunction

section Texts

variable {name : String} {types : List AbiType}

/-- A name that a function can have in a text. -/
def IsIdentifier (name : String) : Prop :=
  name.toList ≠ [] ∧ name.toList.head?.any Char.isDigit = false ∧
    ∀ character ∈ name.toList, isNameCharacter character = true

theorem isVisible_of_isNameCharacter {character : Char}
    (standing : isNameCharacter character = true) : Text.IsVisible character := by
  simp only [isNameCharacter, Bool.or_eq_true, beq_iff_eq] at standing
  rcases standing with (alphanumeric | rfl) | rfl
  · exact Text.isVisible_of_isAlphanum alphanumeric
  · decide
  · decide

/-- A list in parentheses on one line. -/
def IsEnclosed (list : List Char) : Prop :=
  ∃ inner, list = '(' :: (inner ++ [')']) ∧ '\n' ∉ inner

theorem isEnclosed_iff {list : List Char} :
    IsEnclosed list ↔
      (list.length < 2 || list.head? != some '(' || list.getLast? != some ')') = false ∧
        list.contains '\n' = false := by
  simp only [Bool.or_eq_false_iff, decide_eq_false_iff_not, Nat.not_lt, bne_eq_false_iff_eq,
    List.contains_eq_mem]
  constructor
  · rintro ⟨inner, rfl, unbroken⟩
    rw [← List.cons_append, List.getLast?_concat]
    simpa using unbroken
  · rintro ⟨⟨⟨long, opened⟩, closed⟩, unbroken⟩
    rcases List.head?_eq_some_iff.mp opened with ⟨rest, rfl⟩
    rcases List.eq_nil_or_concat rest with rfl | ⟨inner, last, rfl⟩
    · simp at long
    · rw [List.concat_eq_append, ← List.cons_append, List.getLast?_concat,
        Option.some.injEq] at closed
      subst closed
      exact ⟨inner, by simp, by simpa using unbroken⟩

theorem not_isNameCharacter_of_isBlank {character : Char}
    (blank : Text.isBlank character = true) : isNameCharacter character = false := by
  by_contra standing
  rw [Bool.not_eq_false] at standing
  simp [(isVisible_of_isNameCharacter standing).not_blank] at blank

/-- A text gives a name and a list if nothing but blanks stands around and between them. -/
theorem split?_eq_some_iff {characters name list : List Char} :
    split? characters = some (name, list) ↔
      IsIdentifier (String.ofList name) ∧ IsEnclosed list ∧
        ∃ gap, (∀ character ∈ gap, Text.isBlank character = true) ∧
          Text.strip characters = name ++ (gap ++ list) := by
  constructor
  · intro found
    simp only [split?] at found
    split_ifs at found with named enclosed broken
    simp only [Option.some.injEq, Prod.mk.injEq] at found
    rcases found with ⟨rfl, rfl⟩
    simp only [Bool.not_eq_true, Bool.or_eq_false_iff, List.isEmpty_eq_false_iff] at named
    refine ⟨?_, isEnclosed_iff.mpr ?_, ((Text.strip characters).dropWhile
      isNameCharacter).takeWhile Text.isBlank, List.all_eq_true.mp List.all_takeWhile, ?_⟩
    · rw [IsIdentifier, String.toList_ofList]
      exact ⟨named.1, named.2, List.all_eq_true.mp List.all_takeWhile⟩
    · simpa only [Bool.not_eq_true] using And.intro enclosed broken
    · rw [List.takeWhile_append_dropWhile, List.takeWhile_append_dropWhile]
  · rintro ⟨⟨nonempty, notDigit, standing⟩, enclosed, gap, blank, divided⟩
    rw [String.toList_ofList] at nonempty notDigit standing
    have opening : ∃ rest, list = '(' :: rest := by
      rcases enclosed with ⟨inner, rfl, _⟩
      exact ⟨_, rfl⟩
    rcases opening with ⟨rest, opened⟩
    -- The name ends where the blanks or the list begin, and the blanks where the list begins.
    have ended : (gap ++ list).takeWhile isNameCharacter = [] ∧
        (gap ++ list).dropWhile isNameCharacter = gap ++ list := by
      cases gap with
      | nil => simp [opened, (by decide : isNameCharacter '(' = false)]
      | cons first gap => simp [not_isNameCharacter_of_isBlank (blank first (by simp))]
    have taken : (name ++ (gap ++ list)).takeWhile isNameCharacter = name := by
      rw [List.takeWhile_append_of_pos standing, ended.1, List.append_nil]
    have dropped : ((name ++ (gap ++ list)).dropWhile isNameCharacter).dropWhile Text.isBlank =
        list := by
      rw [List.dropWhile_append_of_pos standing, ended.2, List.dropWhile_append_of_pos blank,
        opened, List.dropWhile_cons_of_neg (by decide)]
    have named : (name.isEmpty || name.head?.any Char.isDigit) = false := by
      simp [notDigit, nonempty]
    rcases isEnclosed_iff.mp enclosed with ⟨closed, unbroken⟩
    simp only [split?, divided, taken, dropped, named, closed, unbroken, Bool.false_eq_true,
      if_false]

theorem split?_canonicalSignature (identifier : IsIdentifier name) :
    split? (canonicalSignature name types).toList =
      some (name.toList, AbiType.spelling (.tuple types)) := by
  have listVisible := AbiType.isVisible_of_mem_spelling (.tuple types)
  have visible : ∀ character ∈ name.toList ++ AbiType.spelling (.tuple types),
      Text.IsVisible character :=
    List.forall_mem_append.mpr
      ⟨fun character member => isVisible_of_isNameCharacter (identifier.2.2 character member),
        listVisible⟩
  have unbroken := AbiType.not_mem_of_isVisible listVisible
  rw [AbiType.spelling_tuple] at unbroken
  rw [split?_eq_some_iff, String.ofList_toList, toList_canonicalSignature, ← AbiType.spelling_tuple]
  refine ⟨identifier, ⟨AbiType.spellings types, AbiType.spelling_tuple types, ?_⟩, [], by simp,
    Text.strip_of_visible visible⟩
  intro inside
  exact unbroken (by simp [inside])

theorem ofText_eq_ok_iff {text mutability : String} {outputs : List Param}
    {function : ContractFunction} :
    ofText text outputs mutability = .ok function ↔
      ∃ name list types, split? text.toList = some (name, list) ∧
        AbiType.parse (String.ofList (list.filter (· != ' '))) = .ok (.tuple types) ∧
        function = ⟨String.ofList name, types.map fun type => { type }, outputs, mutability⟩ := by
  rw [ofText]
  constructor
  · intro read
    split at read
    · cases read
    · next name list divided =>
        rcases Outcome.bind_eq_ok_iff.mp read with ⟨type, parsed, made⟩
        cases type with
        | tuple types =>
            cases made
            exact ⟨name, list, types, divided, parsed, rfl⟩
        | _ => cases made
  · rintro ⟨name, list, types, divided, parsed, rfl⟩
    rw [divided]
    simp only [parsed, Outcome.ok_bind, Outcome.pure_eq_ok]

/-- The function that is read from a canonical signature. -/
theorem ofText_canonicalSignature (outputs : List Param) (mutability : String)
    (identifier : IsIdentifier name) (constructed : ∀ type ∈ types, type.Constructed)
    (nonempty : ∀ type ∈ types, type.isEmptyTuple = false) :
    ofText (canonicalSignature name types) outputs mutability = .ok {
      name, inputs := types.map fun type => { type }, outputs, mutability } := by
  have unspaced : (AbiType.spelling (.tuple types)).filter (· != ' ') =
      AbiType.spelling (.tuple types) := by
    rw [List.filter_eq_self]
    intro character member
    have visible := AbiType.isVisible_of_mem_spelling (.tuple types) character member
    have notSpace : character ≠ ' ' := by
      rintro rfl
      exact absurd visible (by decide)
    simpa using notSpace
  have built : AbiType.tupleOf types = .ok (.tuple types) := by
    have noneEmpty : types.any AbiType.isEmptyTuple = false := by
      simpa using nonempty
    simp [AbiType.tupleOf, noneEmpty]
  have read : AbiType.parse (String.ofList (AbiType.spelling (.tuple types))) =
      .ok (.tuple types) := by
    rw [AbiType.parse, String.toList_ofList,
      AbiType.ofText_group fun type member => AbiType.ofText_spelling (constructed type member),
      built]
  rw [ofText_eq_ok_iff]
  exact ⟨name.toList, _, types, split?_canonicalSignature identifier, by rwa [unspaced],
    by rw [String.ofList_toList]⟩

end Texts

section Documents

variable {name : String} {inputs outputs : List AbiType} {items : List Value}

/-- The entry of an interface document that declares a function with the given name, and with
parameters and results of the given types. -/
structure IsDeclaredBy (name : String) (inputs outputs : List AbiType) (document : Dict) :
    Prop where
  kind : Schema.field document "type" "function" Schema.text = .valid "function"
  name : Schema.field document "name" "" Schema.text = .valid name
  inputs : ∃ list items, Dict.get? document "inputs" = some list ∧ list.items? = some items ∧
    List.Forall₂ AbiType.IsGivenBy items inputs
  outputs : ∃ list items, Dict.get? document "outputs" = some list ∧ list.items? = some items ∧
    List.Forall₂ AbiType.IsGivenBy items outputs
  mutability : ∃ mutability, Schema.field document (AbiEntry.mutabilityKey document) none
    (Schema.optional Schema.text) = .valid mutability
  anonymous : ∃ anonymous, Schema.field document "anonymous" false Schema.flag = .valid anonymous
  constant : ∃ constant, Schema.field document "constant" none (Schema.optional Schema.flag) =
    .valid constant
  payable : ∃ payable, Schema.field document "payable" none (Schema.optional Schema.flag) =
    .valid payable

/-- Parameters of types that can be built are read from a list of dictionaries that give them. -/
theorem itemsFrom_of_areGivenBy {types : List AbiType}
    (given : List.Forall₂ AbiType.IsGivenBy items types)
    (constructed : ∀ type ∈ types, type.Constructed) (position : Nat) :
    ∃ entries params, Schema.itemsFrom ParamEntry.read position items = .valid entries ∧
      entries.mapM ParamEntry.toParam = .ok params ∧ Param.types params = types := by
  induction given generalizing position with
  | nil => exact ⟨[], [], rfl, rfl, rfl⟩
  | @cons item type items types first _ ih =>
      rw [List.forall_mem_cons] at constructed
      rcases ParamEntry.read_of_isGivenBy constructed.1 first with
        ⟨entry, param, readEntry, loaded, paramType⟩
      rcases ih constructed.2 (position + 1) with ⟨entries, params, readOthers, others, types⟩
      refine ⟨entry :: entries, param :: params, ?_, ?_, ?_⟩
      · rw [Schema.itemsFrom, readEntry, readOthers]
        rfl
      · simp [List.mapM_cons, loaded, others]
      · rw [Param.types, List.map_cons, paramType]
        exact congrArg (type :: ·) types

theorem field_of_given {types : List AbiType} {document : Dict} {key : String} {list : Value}
    (found : Dict.get? document key = some list) (listed : list.items? = some items)
    (given : List.Forall₂ AbiType.IsGivenBy items types)
    (constructed : ∀ type ∈ types, type.Constructed) :
    ∃ entries params,
      Schema.field document key [] (Schema.list ParamEntry.read) = .valid entries ∧
      entries.mapM ParamEntry.toParam = .ok params ∧ Param.types params = types := by
  rcases itemsFrom_of_areGivenBy given constructed 0 with ⟨entries, params, read, loaded, types⟩
  refine ⟨entries, params, ?_, loaded, types⟩
  simp only [Schema.field, found, Schema.list, listed, read]
  rfl

/-- A function that a document declares is loaded with its name and its types. -/
theorem IsDeclaredBy.toFunction_eq {document : Dict}
    (declared : IsDeclaredBy name inputs outputs document)
    (inputsConstructed : ∀ type ∈ inputs, type.Constructed)
    (outputsConstructed : ∀ type ∈ outputs, type.Constructed) :
    ∃ entry function, AbiEntry.read (.dict document) = .valid entry ∧
      entry.toFunction = .ok function ∧ function.name = name ∧
      Param.types function.inputs = inputs ∧ Param.types function.outputs = outputs := by
  rcases declared with ⟨kind, named, ⟨inputList, inputItems, inputFound, inputListed, inputGiven⟩,
    ⟨outputList, outputItems, outputFound, outputListed, outputGiven⟩, ⟨mutability, readMutability⟩,
    ⟨anonymous, readAnonymous⟩, ⟨constant, readConstant⟩, ⟨payable, readPayable⟩⟩
  rcases field_of_given inputFound inputListed inputGiven inputsConstructed with
    ⟨inputEntries, inputParams, readInputs, loadedInputs, inputTypes⟩
  rcases field_of_given outputFound outputListed outputGiven outputsConstructed with
    ⟨outputEntries, outputParams, readOutputs, loadedOutputs, outputTypes⟩
  let entry : AbiEntry :=
    ⟨"function", name, inputEntries, outputEntries, mutability, anonymous, constant, payable⟩
  have read : AbiEntry.read (.dict document) = .valid entry := by
    simp only [AbiEntry.read, Schema.model, kind, named, readInputs, readOutputs, readMutability,
      readAnonymous, readConstant, readPayable]
    rfl
  have loaded : entry.toFunction = .ok ⟨name, inputParams, outputParams, entry.mutability⟩ := by
    simp [entry, AbiEntry.toFunction, loadedInputs, loadedOutputs]
  exact ⟨entry, _, read, loaded, rfl, inputTypes, outputTypes⟩

end Documents

end ContractFunction

/-- A canonical text determines the type that it was written for, and so does the form that
interface documents give the type. A canonical signature determines its name and its types, and the
function that is read from it has the selector of every function that a document declares with the
same name and types. -/
theorem types_determined_by_texts :
    (∀ type : AbiType, type.Constructed →
      AbiType.parse type.canonical = .ok type ∧
      ∀ components, type.IsListedBy components →
        AbiType.ofDocument (.text (String.ofList type.documentSpelling)) components = .ok type) ∧
    (∀ (firstName secondName : String) (firstTypes secondTypes : List AbiType),
      '(' ∉ firstName.toList → '(' ∉ secondName.toList →
      (∀ type ∈ firstTypes, type.Constructed) → (∀ type ∈ secondTypes, type.Constructed) →
      canonicalSignature firstName firstTypes = canonicalSignature secondName secondTypes →
      firstName = secondName ∧ firstTypes = secondTypes) ∧
    (∀ (name : String) (types : List AbiType) (outputs : List Param) (mutability : String),
      ContractFunction.IsIdentifier name →
      (∀ type ∈ types, type.Constructed ∧ type.isEmptyTuple = false) →
      ∃ function,
        ContractFunction.ofText (canonicalSignature name types) outputs mutability = .ok function ∧
        function.name = name ∧ Param.types function.inputs = types ∧
        ∀ document results, ContractFunction.IsDeclaredBy name types results document →
          (∀ result ∈ results, result.Constructed) →
          ∃ entry loaded, AbiEntry.read (.dict document) = .valid entry ∧
            entry.toFunction = .ok loaded ∧ loaded.name = name ∧
            Param.types loaded.inputs = types ∧ function.selector = loaded.selector) := by
  refine ⟨fun type constructed => ⟨?_, ?_⟩, ?_, ?_⟩
  · rw [AbiType.parse, AbiType.canonical, String.toList_ofList]
    exact AbiType.ofText_spelling constructed
  · exact fun components listed => AbiType.ofDocument_of_isListedBy constructed listed
  · intro firstName secondName firstTypes secondTypes _ _
    exact canonicalSignature_injective
  · intro name types outputs mutability identifier members
    have constructed : ∀ type ∈ types, type.Constructed :=
      fun type member => (members type member).1
    have nonempty : ∀ type ∈ types, type.isEmptyTuple = false :=
      fun type member => (members type member).2
    have read := ContractFunction.ofText_canonicalSignature outputs mutability identifier
      constructed nonempty
    have readTypes : Param.types (types.map fun type => { type }) = types := by
      simp [Param.types, Function.comp_def]
    refine ⟨_, read, rfl, readTypes, ?_⟩
    intro document results declared resultsConstructed
    rcases declared.toFunction_eq constructed resultsConstructed with
      ⟨entry, loaded, readEntry, loadedEntry, loadedName, loadedTypes, _⟩
    refine ⟨entry, loaded, readEntry, loadedEntry, loadedName, loadedTypes, ?_⟩
    rw [ContractFunction.selector, ContractFunction.selector, ContractFunction.canonical,
      ContractFunction.canonical, readTypes, loadedName, loadedTypes]

/-- Orders, each of a number and two texts. -/
def orderType : AbiType :=
  .array (.tuple [.uint 256, .fixedArray .string 2])

/-- The components of an order as a document lists them. -/
def orderComponents : Value :=
  .list [
    .dict [("name", .text "id"), ("type", .text "uint256")],
    .dict [("internalType", .text "string[2]"), ("type", .text "string[2]"), ("name", .text "")]]

/-- The entry of a document that declares a function of orders. -/
def settleEntry : Dict :=
  [("type", .text "function"), ("name", .text "settle"), ("stateMutability", .text "view"),
    ("inputs", .list [.dict [("name", .text "orders"), ("type", .text "tuple[]"),
      ("components", orderComponents)]]),
    ("outputs", .list [.dict [("name", .text ""), ("type", .text "bool")]])]

theorem orderType_constructed : orderType.Constructed := by
  have short : 2 < 10 ^ Text.digitLimit :=
    calc 2 < 10 ^ 1 := by decide
      _ ≤ 10 ^ Text.digitLimit := Nat.pow_le_pow_right (by decide) (by decide)
  have components : ∀ component ∈ [AbiType.uint 256, .fixedArray .string 2],
      component.Constructed := by
    rw [List.forall_mem_cons, List.forall_mem_singleton]
    exact ⟨.uint (.int 256) rfl, .ofLength .string rfl (by decide) short⟩
  exact .array (.tuple components rfl) rfl

theorem orderType_isListedBy : orderType.IsListedBy orderComponents := by
  refine ⟨_, rfl, ⟨⟨_, "id", false, rfl, rfl, rfl⟩, rfl, rfl⟩,
    ⟨⟨_, "", false, rfl, rfl, rfl⟩, rfl, rfl⟩, trivial⟩

theorem settleEntry_isDeclared :
    ContractFunction.IsDeclaredBy "settle" [orderType] [.bool] settleEntry where
  kind := rfl
  name := rfl
  inputs := ⟨_, _, rfl, rfl, .cons ⟨⟨_, "orders", false, rfl, rfl, rfl⟩, rfl,
    orderType_isListedBy⟩ .nil⟩
  outputs := ⟨_, _, rfl, rfl, .cons ⟨⟨_, "", false, rfl, rfl, rfl⟩, rfl, rfl⟩ .nil⟩
  mutability := ⟨some "view", rfl⟩
  anonymous := ⟨false, rfl⟩
  constant := ⟨none, rfl⟩
  payable := ⟨none, rfl⟩

theorem orderType_determined_by_texts :
    AbiType.parse "(uint256,string[2])[]" = .ok orderType ∧
    AbiType.ofDocument (.text "tuple[]") orderComponents = .ok orderType ∧
    ("settle" = "settle" ∧ [orderType] = [orderType]) ∧
    ∃ function, ContractFunction.ofText "settle((uint256,string[2])[])" = .ok function ∧
      Param.types function.inputs = [orderType] ∧
      ∃ entry loaded, AbiEntry.read (.dict settleEntry) = .valid entry ∧
        entry.toFunction = .ok loaded ∧ function.selector = loaded.selector := by
  have settled := types_determined_by_texts
  have constructed : ∀ type ∈ [orderType], type.Constructed :=
    List.forall_mem_singleton.mpr orderType_constructed
  refine ⟨(settled.1 orderType orderType_constructed).1,
    (settled.1 orderType orderType_constructed).2 orderComponents orderType_isListedBy,
    settled.2.1 "settle" "settle" [orderType] [orderType] (by decide) (by decide) constructed
      constructed rfl, ?_⟩
  have identifier : ContractFunction.IsIdentifier "settle" :=
    ⟨by decide, by decide, List.all_eq_true.mp (by decide)⟩
  rcases settled.2.2 "settle" [orderType] [] "nonpayable" identifier
    (List.forall_mem_singleton.mpr ⟨orderType_constructed, rfl⟩) with
    ⟨function, read, _, types, documents⟩
  rcases documents settleEntry [.bool] settleEntry_isDeclared
    (List.forall_mem_singleton.mpr .bool) with
    ⟨entry, loaded, readEntry, loadedEntry, _, _, selectors⟩
  exact ⟨function, read, types, entry, loaded, readEntry, loadedEntry, selectors⟩

end ContractClient
