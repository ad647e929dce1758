import ContractClient.Proofs.Abi.Lookup

/-!
# Spaces in signatures

Spaces do not count in the text of a function (`ContractFunction.ofText_withoutSpaces`). A lookup by
signature does not count them either when it compares signatures, but it first takes everything up
to the parenthesis for a name, with the spaces that stand there. So spaces change nothing exactly if
none of them stands before the parenthesis, or if nothing that is declared has the signature
(`ContractAbi.lookups_findAlike_iff`).
-/

namespace ContractClient

namespace Text

def withoutSpaces (text : String) : String :=
  String.ofList (text.toList.filter (· != ' '))

variable {text : String} {characters : List Char}

@[simp]
theorem toList_withoutSpaces : (withoutSpaces text).toList = text.toList.filter (· != ' ') := by
  rw [withoutSpaces, String.toList_ofList]

/-- A test that spaces pass anyway is not changed by letting them pass. -/
theorem or_space {test : Char → Bool} (passed : test ' ' = true) :
    (fun character => !(character != ' ') || test character) = test := by
  funext character
  by_cases space : character = ' '
  · simp [space, passed]
  · simp [space]

theorem dropWhile_isBlank_filter :
    (characters.filter (· != ' ')).dropWhile isBlank =
      (characters.dropWhile isBlank).filter (· != ' ') := by
  rw [List.dropWhile_filter, or_space (by decide)]

theorem strip_filter :
    strip (characters.filter (· != ' ')) = (strip characters).filter (· != ' ') := by
  simp only [strip, stripRight, dropWhile_isBlank_filter, ← List.filter_reverse]

end Text

namespace ContractFunction

variable {characters name list : List Char}

theorem filter_of_standing (standing : ∀ character ∈ name, isNameCharacter character = true) :
    name.filter (· != ' ') = name := by
  apply Declarations.filter_of_unspaced
  intro inside
  exact absurd (standing ' ' inside) (by decide)

theorem IsEnclosed.filter (enclosed : IsEnclosed list) : IsEnclosed (list.filter (· != ' ')) := by
  rcases enclosed with ⟨inner, rfl, unbroken⟩
  refine ⟨inner.filter (· != ' '), by simp, ?_⟩
  intro inside
  exact unbroken (List.mem_of_mem_filter inside)

theorem split?_filter (divided : split? characters = some (name, list)) :
    split? (characters.filter (· != ' ')) = some (name, list.filter (· != ' ')) := by
  rcases split?_eq_some_iff.mp divided with ⟨identifier, enclosed, gap, blank, whole⟩
  apply split?_eq_some_iff.mpr
  refine ⟨identifier, enclosed.filter, gap.filter (· != ' '), ?_, ?_⟩
  · intro character inside
    exact blank character (List.mem_of_mem_filter inside)
  · have standing := identifier.2.2
    rw [String.toList_ofList] at standing
    rw [Text.strip_filter, whole, List.filter_append, List.filter_append,
      filter_of_standing standing]

/-- The function that a text gives is also given by the text without its spaces. -/
theorem ofText_withoutSpaces {text mutability : String} {outputs : List Param}
    {function : ContractFunction} (read : ofText text outputs mutability = .ok function) :
    ofText (Text.withoutSpaces text) outputs mutability = .ok function := by
  rcases ofText_eq_ok_iff.mp read with ⟨name, list, types, divided, parsed, made⟩
  refine ofText_eq_ok_iff.mpr ⟨name, list.filter (· != ' '), types, ?_, ?_, made⟩
  · rw [Text.toList_withoutSpaces]
    exact split?_filter divided
  · simpa only [List.filter_filter, Bool.and_self] using parsed

end ContractFunction

/-- Two lookups find the same, or what they are given is invalid for both. -/
inductive FindsAlike {α : Type} : Outcome α → Outcome α → Prop where
  | found (item : α) : FindsAlike (.ok item) (.ok item)
  | refused {first second : Fault} (firstInvalid : first.kind = .validation)
      (secondInvalid : second.kind = .validation) :
      FindsAlike (Outcome.fault first) (Outcome.fault second)

namespace Declarations

variable {α : Type} {nameOf canonical : α → String} {typesOf : α → List AbiType}
  {kind key : String} {items : List α} {declarations : Declarations α}

theorem mem_withoutSpaces (signature : '(' ∈ key.toList) :
    '(' ∈ (Text.withoutSpaces key).toList := by
  simp [signature]

theorem nameOf_withoutSpaces :
    Declarations.nameOf (Text.withoutSpaces key) =
      Text.withoutSpaces (Declarations.nameOf key) := by
  rw [Declarations.nameOf, Text.toList_withoutSpaces, List.takeWhile_filter,
    Text.or_space (by decide), Declarations.nameOf, Text.withoutSpaces, String.toList_ofList]

/-- Spaces behind the name do not count. -/
theorem resolve_withoutSpaces (signature : '(' ∈ key.toList)
    (unspaced : ' ' ∉ (Declarations.nameOf key).toList) :
    FindsAlike (declarations.resolve canonical kind key)
      (declarations.resolve canonical kind (Text.withoutSpaces key)) := by
  have sameName : Declarations.nameOf (Text.withoutSpaces key) = Declarations.nameOf key := by
    rw [nameOf_withoutSpaces, Text.withoutSpaces, filter_of_unspaced unspaced,
      String.ofList_toList]
  have sameSignature : (Text.withoutSpaces key).toList.filter (· != ' ') =
      key.toList.filter (· != ' ') := by
    simp [List.filter_filter]
  rw [resolve_eq_of_signature signature, resolve_eq_of_signature (mem_withoutSpaces signature),
    sameName, sameSignature]
  split
  · exact .found _
  · exact .refused rfl rfl

/-- No declaration is found by a signature with a space in the name. -/
theorem resolve_spaced
    (plain : ∀ item ∈ items, '(' ∉ (nameOf item).toList ∧ ' ' ∉ (nameOf item).toList)
    (signature : '(' ∈ key.toList) (spaced : ' ' ∈ (Declarations.nameOf key).toList) :
    (ofList nameOf items).resolve canonical kind key =
      Outcome.fault (.validation s!"Unknown {kind} signature: {key}") := by
  apply resolve_unknownSignature signature
  intro found resolved
  have listed := (mem_named_of_resolve_signature signature resolved).1
  rw [named_ofList, List.mem_filter, beq_iff_eq] at listed
  apply (plain found listed.1).2
  rwa [listed.2]

theorem findsAlike_withoutSpaces_iff
    (spelled : ∀ item ∈ items, canonical item = canonicalSignature (nameOf item) (typesOf item))
    (plain : ∀ item ∈ items, '(' ∉ (nameOf item).toList ∧ ' ' ∉ (nameOf item).toList)
    (signature : '(' ∈ key.toList) :
    FindsAlike ((ofList nameOf items).resolve canonical kind key)
        ((ofList nameOf items).resolve canonical kind (Text.withoutSpaces key)) ↔
      ' ' ∉ (Declarations.nameOf key).toList ∨
        ∀ item ∈ items, canonical item ≠ Text.withoutSpaces key := by
  have faithful : FaithfulLookup kind nameOf canonical items
      ((ofList nameOf items).resolve canonical kind) := faithful_resolve spelled plain
  by_cases spaced : ' ' ∈ (Declarations.nameOf key).toList
  · rw [resolve_spaced plain signature spaced]
    simp only [spaced, not_true_eq_false, false_or]
    constructor
    · intro alike item member same
      rcases faithful.ofCanonical item member with ⟨found, _, resolved, _⟩
      rw [same] at resolved
      rw [resolved] at alike
      cases alike
    · intro undeclared
      rw [faithful.ofUnknownSignature _ (mem_withoutSpaces signature)]
      · exact .refused rfl rfl
      · intro found resolved
        rcases faithful.ofSignature _ found (mem_withoutSpaces signature) resolved with
          ⟨member, same⟩
        apply undeclared found member
        rw [← String.toList_inj, same]
        simp [List.filter_filter]
  · simp only [spaced, not_false_eq_true, true_or, iff_true]
    exact resolve_withoutSpaces signature spaced

end Declarations

namespace ContractAbi

variable {abi : ContractAbi} {entries : List AbiEntry}

/-- A lookup by signature finds the same with spaces as without them exactly if no space stands
before the parenthesis, or if nothing that is declared has the signature. The text of a function may
have spaces anywhere but in its name. -/
theorem lookups_findAlike_iff (loaded : ofEntries entries = .ok abi)
    (functionNames : ∀ function ∈ abi.functions, ContractFunction.IsIdentifier function.name)
    (eventNames : ∀ event ∈ abi.events, ContractFunction.IsIdentifier event.name) :
    (∀ key, '(' ∈ key.toList →
      (FindsAlike (abi.function key) (abi.function (Text.withoutSpaces key)) ↔
        ' ' ∉ (Declarations.nameOf key).toList ∨
          ∀ function ∈ abi.functions, function.canonical ≠ Text.withoutSpaces key)) ∧
    (∀ key, '(' ∈ key.toList →
      (FindsAlike (abi.event key) (abi.event (Text.withoutSpaces key)) ↔
        ' ' ∉ (Declarations.nameOf key).toList ∨
          ∀ event ∈ abi.events, event.canonical ≠ Text.withoutSpaces key)) ∧
    ∀ text outputs mutability function,
      ContractFunction.ofText text outputs mutability = .ok function →
        ContractFunction.ofText (Text.withoutSpaces text) outputs mutability = .ok function := by
  rcases declares_of_ofEntries loaded with ⟨functions, events, errors, declares⟩
  refine ⟨?_, ?_, fun _ _ _ _ => ContractFunction.ofText_withoutSpaces⟩
  · intro key signature
    have plain : ∀ function ∈ functions,
        '(' ∉ function.name.toList ∧ ' ' ∉ function.name.toList := fun function member =>
      (functionNames function (declares.perm_functions.symm.subset member)).isPlain
    simp only [ContractAbi.function, declares.functionsByName, declares.perm_functions.mem_iff]
    exact Declarations.findsAlike_withoutSpaces_iff (fun _ _ => rfl) plain signature
  · intro key signature
    have plain : ∀ event ∈ events, '(' ∉ event.name.toList ∧ ' ' ∉ event.name.toList :=
      fun event member => (eventNames event (declares.perm_events.symm.subset member)).isPlain
    simp only [ContractAbi.event, declares.eventsByName, declares.perm_events.mem_iff]
    exact Declarations.findsAlike_withoutSpaces_iff (fun _ _ => rfl) plain signature

theorem lookups_findAlike_store :
    ofEntries storeEntries = .ok storeAbi ∧
      FindsAlike (storeAbi.function "put( bytes )") (storeAbi.function "put(bytes)") ∧
      FindsAlike (storeAbi.event "Stored (address)") (storeAbi.event "Stored(address)") := by
  have settled := lookups_findAlike_iff ofEntries_store functionNames_store eventNames_store
  refine ⟨ofEntries_store, (settled.1 "put( bytes )" (by decide)).mpr (.inl (by decide)),
    (settled.2.1 "Stored (address)" (by decide)).mpr (.inr ?_)⟩
  decide

theorem ofText_put_spaced : ContractFunction.ofText "put (bytes)" = .ok (put .bytes) := by
  have identifier : ContractFunction.IsIdentifier "put" :=
    functionNames_store (put .bytes) (by simp [functions, storeAbi, Declarations.all])
  have plain : ContractFunction.ofText "put(bytes)" = .ok (put .bytes) :=
    ContractFunction.ofText_canonicalSignature [] "nonpayable" identifier
      (List.forall_mem_singleton.mpr .bytes) (List.forall_mem_singleton.mpr rfl)
  have divided : ContractFunction.split? "put (bytes)".toList =
      ContractFunction.split? "put(bytes)".toList := by decide
  rw [ContractFunction.ofText_eq_ok_iff] at plain ⊢
  rwa [divided]

/-- A space before the parenthesis hides a function of the store, though the text of the function
may have it there. -/
theorem lookups_spaced_store :
    ofDocument storeDocument = .ok storeAbi ∧
      (∀ function ∈ storeAbi.functions, ContractFunction.IsIdentifier function.name) ∧
      storeAbi.function "put (bytes)" =
        Outcome.fault (.validation "Unknown function signature: put (bytes)") ∧
      storeAbi.function (Text.withoutSpaces "put (bytes)") = .ok (put .bytes) ∧
      ¬FindsAlike (storeAbi.function "put (bytes)")
        (storeAbi.function (Text.withoutSpaces "put (bytes)")) ∧
      ContractFunction.ofText "put (bytes)" = .ok (put .bytes) := by
  have hidden : storeAbi.function "put (bytes)" =
      Outcome.fault (.validation "Unknown function signature: put (bytes)") := rfl
  have found : storeAbi.function (Text.withoutSpaces "put (bytes)") = .ok (put .bytes) := rfl
  refine ⟨ofDocument_store, functionNames_store, hidden, found, ?_, ofText_put_spaced⟩
  intro alike
  rw [hidden, found] at alike
  cases alike

end ContractAbi

end ContractClient
