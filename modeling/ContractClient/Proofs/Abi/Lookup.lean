import ContractClient.Proofs.Abi.Declarations
import ContractClient.Proofs.Abi.Signature

/-!
# Looking up declarations

A declaration is looked up by its name or by its canonical signature. `FaithfulLookup` says what a
lookup must do: it finds every declaration by its signature, finds a declaration by its name exactly
if no other one has the name, names the alternatives where several have it, and never takes one
signature for another. Lookups of functions and of events are faithful wherever the names are
identifiers (`ContractAbi.lookups_faithful`).
-/

namespace ContractClient

variable {α : Type} {nameOf canonical : α → String} {typesOf : α → List AbiType} {kind key : String}
  {items : List α} {item : α}

/-- How a name is refused that several declarations have. -/
def Declarations.ambiguousName (kind name : String) (options : List String) : Fault :=
  .validation
    (s!"Ambiguous {kind} {Text.quote name}; use one of: " ++ ", ".intercalate options)
    [("overloads", .list (options.map .text))]

/-- A lookup finds what was declared, and nothing else. -/
structure FaithfulLookup (kind : String) (nameOf canonical : α → String) (declared : List α)
    (lookup : String → Outcome α) : Prop where
  /-- Every declaration is found by its canonical signature. -/
  ofCanonical : ∀ item ∈ declared, ∃ found ∈ declared,
    lookup (canonical item) = .ok found ∧ canonical found = canonical item
  /-- What is found by a signature has this signature, in which spaces do not count. -/
  ofSignature : ∀ key found, '(' ∈ key.toList → lookup key = .ok found →
    found ∈ declared ∧ (canonical found).toList = key.toList.filter (· != ' ')
  ofUnknownSignature : ∀ key, '(' ∈ key.toList → (∀ found, lookup key ≠ .ok found) →
    lookup key = Outcome.fault (.validation s!"Unknown {kind} signature: {key}")
  /-- A declaration is found by its name if it is the only one that has it. -/
  ofName : ∀ key found, '(' ∉ key.toList →
    (lookup key = .ok found ↔ (declared.filter fun item => nameOf item == key) = [found])
  ofSharedName : ∀ key, '(' ∉ key.toList →
    1 < (declared.filter fun item => nameOf item == key).length →
    lookup key = Outcome.fault (Declarations.ambiguousName kind key
      ((declared.filter fun item => nameOf item == key).map canonical))
  ofUnknownName : ∀ key, '(' ∉ key.toList → (∀ item ∈ declared, nameOf item ≠ key) →
    lookup key = Outcome.fault (.validation s!"Unknown {kind}: {key}")

namespace Declarations

variable {declarations : Declarations α}

theorem resolve_eq_of_signature (signature : '(' ∈ key.toList) :
    declarations.resolve canonical kind key =
      match (declarations.named (Declarations.nameOf key)).find? fun found =>
          canonical found == String.ofList (key.toList.filter (· != ' ')) with
      | some found => .ok found
      | none => Outcome.fault (.validation s!"Unknown {kind} signature: {key}") := by
  have parenthesised : key.toList.contains '(' = true := by simpa using signature
  exact if_pos parenthesised

theorem resolve_eq_of_name (plain : '(' ∉ key.toList) :
    declarations.resolve canonical kind key =
      match declarations.named key with
      | [found] => .ok found
      | [] => Outcome.fault (.validation s!"Unknown {kind}: {key}")
      | several => Outcome.fault (ambiguousName kind key (several.map canonical)) := by
  have bare : ¬key.toList.contains '(' = true := by simpa using plain
  exact if_neg bare

/-- What is found by a signature stands under the name in it, and has the signature. -/
theorem mem_named_of_resolve_signature {found : α} (signature : '(' ∈ key.toList)
    (resolved : declarations.resolve canonical kind key = .ok found) :
    found ∈ declarations.named (Declarations.nameOf key) ∧
      (canonical found).toList = key.toList.filter (· != ' ') := by
  rw [resolve_eq_of_signature signature] at resolved
  split at resolved
  · next listed =>
      cases resolved
      have same := List.find?_some listed
      simp only [beq_iff_eq] at same
      exact ⟨List.mem_of_find?_eq_some listed, by rw [same, String.toList_ofList]⟩
  · cases resolved

theorem resolve_unknownSignature (signature : '(' ∈ key.toList)
    (unresolved : ∀ found, declarations.resolve canonical kind key ≠ .ok found) :
    declarations.resolve canonical kind key =
      Outcome.fault (.validation s!"Unknown {kind} signature: {key}") := by
  rw [resolve_eq_of_signature signature] at unresolved ⊢
  split
  · next found listed =>
      rw [listed] at unresolved
      exact absurd rfl (unresolved found)
  · rfl

theorem filter_of_unspaced {text : List Char} (unspaced : ' ' ∉ text) :
    text.filter (· != ' ') = text := by
  rw [List.filter_eq_self]
  intro character inside
  have other : character ≠ ' ' := by
    rintro rfl
    exact unspaced inside
  simpa using other

/-- Whatever stands under the name in its signature can be found by the signature. -/
theorem exists_resolve_canonical (signature : '(' ∈ (canonical item).toList)
    (unspaced : ' ' ∉ (canonical item).toList)
    (member : item ∈ declarations.named (Declarations.nameOf (canonical item))) :
    ∃ found, declarations.resolve canonical kind (canonical item) = .ok found := by
  rw [resolve_eq_of_signature signature, filter_of_unspaced unspaced, String.ofList_toList]
  split
  · exact ⟨_, rfl⟩
  · next absent =>
      rw [List.find?_eq_none] at absent
      exact absurd (beq_self_eq_true _) (absent item member)

theorem resolve_name_eq_ok_iff {found : α} (plain : '(' ∉ key.toList) :
    declarations.resolve canonical kind key = .ok found ↔ declarations.named key = [found] := by
  rw [resolve_eq_of_name plain]
  split <;> simp_all

theorem resolve_sharedName (plain : '(' ∉ key.toList)
    (shared : 1 < (declarations.named key).length) :
    declarations.resolve canonical kind key =
      Outcome.fault (ambiguousName kind key ((declarations.named key).map canonical)) := by
  rw [resolve_eq_of_name plain]
  split
  · next alone => simp [alone] at shared
  · next none => simp [none] at shared
  · rfl

theorem resolve_unknownName (plain : '(' ∉ key.toList) (unknown : declarations.named key = []) :
    declarations.resolve canonical kind key =
      Outcome.fault (.validation s!"Unknown {kind}: {key}") := by
  rw [resolve_eq_of_name plain, unknown]

section Spelled

variable
  (spelled : ∀ item ∈ items, canonical item = canonicalSignature (nameOf item) (typesOf item))
  (plain : ∀ item ∈ items, '(' ∉ (nameOf item).toList ∧ ' ' ∉ (nameOf item).toList)

include spelled plain

theorem resolve_ofList_canonical (member : item ∈ items) :
    ∃ found ∈ items, (ofList nameOf items).resolve canonical kind (canonical item) = .ok found ∧
      canonical found = canonical item := by
  have written := spelled item member
  have signature : '(' ∈ (canonical item).toList := by
    simp [written, toList_canonicalSignature]
  have unspaced : ' ' ∉ (canonical item).toList := by
    rw [written, toList_canonicalSignature, ← AbiType.spelling_tuple, List.mem_append, not_or]
    refine ⟨(plain item member).2, fun inside => ?_⟩
    exact absurd (AbiType.isVisible_of_mem_spelling _ _ inside) (by decide)
  have named : item ∈ (ofList nameOf items).named (Declarations.nameOf (canonical item)) := by
    rw [written, nameOf_canonicalSignature (plain item member).1, named_ofList]
    simpa using member
  obtain ⟨found, resolved⟩ : ∃ found,
      (ofList nameOf items).resolve canonical kind (canonical item) = .ok found :=
    exists_resolve_canonical signature unspaced named
  rcases mem_named_of_resolve_signature signature resolved with ⟨listed, same⟩
  rw [filter_of_unspaced unspaced] at same
  rw [named_ofList] at listed
  exact ⟨found, List.mem_of_mem_filter listed, resolved, String.toList_inj.mp same⟩

/-- The lookup in a table by name is faithful, if the names have neither parentheses nor spaces. -/
theorem faithful_resolve :
    FaithfulLookup kind nameOf canonical items
      ((ofList nameOf items).resolve canonical kind) where
  ofCanonical item member := resolve_ofList_canonical spelled plain member
  ofSignature key found signature resolved := by
    rcases mem_named_of_resolve_signature signature resolved with ⟨listed, same⟩
    rw [named_ofList] at listed
    exact ⟨List.mem_of_mem_filter listed, same⟩
  ofUnknownSignature key := resolve_unknownSignature
  ofName key found bare := by
    rw [resolve_name_eq_ok_iff bare, named_ofList]
  ofSharedName key bare shared := by
    rw [← named_ofList] at shared ⊢
    exact resolve_sharedName bare shared
  ofUnknownName key bare unknown := by
    refine resolve_unknownName bare ?_
    rw [named_ofList, List.filter_eq_nil_iff]
    simpa using unknown

end Spelled

end Declarations

namespace ContractFunction

variable {name : String}

theorem IsIdentifier.isPlain (identifier : IsIdentifier name) :
    '(' ∉ name.toList ∧ ' ' ∉ name.toList := by
  rcases identifier with ⟨_, _, characters⟩
  exact ⟨fun inside => absurd (characters _ inside) (by decide),
    fun inside => absurd (characters _ inside) (by decide)⟩

end ContractFunction

namespace ContractAbi

variable {abi : ContractAbi} {document : Value}

/-- A function is found by its name exactly if it is the only one that has it. -/
theorem Declares.function_eq_ok_iff {entries : List AbiEntry} {functions : List ContractFunction}
    {events : List ContractEvent} {errors : List ContractError}
    (declares : Declares entries functions events errors abi) {name : String}
    {function : ContractFunction} (plain : '(' ∉ name.toList) :
    abi.function name = .ok function ↔
      (abi.functions.filter fun other => other.name == name) = [function] := by
  have sameNamed := declares.perm_functions.filter fun other => other.name == name
  rw [ContractAbi.function, Declarations.resolve_name_eq_ok_iff plain, declares.functionsByName,
    Declarations.named_ofList]
  constructor
  · intro alone
    rw [alone] at sameNamed
    exact List.perm_singleton.mp sameNamed
  · intro alone
    rw [alone] at sameNamed
    exact List.perm_singleton.mp sameNamed.symm

/-- An interface that is loaded holds one function for every entry of a function and one event for
every entry of an event, and looks them up faithfully, if their names are identifiers. -/
theorem lookups_faithful (loaded : ofDocument document = .ok abi)
    (functionNames : ∀ function ∈ abi.functions, ContractFunction.IsIdentifier function.name)
    (eventNames : ∀ event ∈ abi.events, ContractFunction.IsIdentifier event.name) :
    ∃ entries functions events, AbiEntry.ofDocument document = .ok entries ∧
      AbiEntry.declared "function" AbiEntry.toFunction entries = .ok functions ∧
      AbiEntry.declared "event" AbiEntry.toEvent entries = .ok events ∧
      abi.functions.Perm functions ∧ abi.events.Perm events ∧
      FaithfulLookup "function" ContractFunction.name ContractFunction.canonical functions
        abi.function ∧
      FaithfulLookup "event" ContractEvent.name ContractEvent.canonical events abi.event := by
  rcases Outcome.bind_eq_ok_iff.mp loaded with ⟨entries, read, loadedEntries⟩
  rcases declares_of_ofEntries loadedEntries with ⟨functions, events, errors, declares⟩
  refine ⟨entries, functions, events, read, declares.declaredFunctions, declares.declaredEvents,
    declares.perm_functions, declares.perm_events, ?_, ?_⟩
  · have lookup : abi.function = (Declarations.ofList ContractFunction.name functions).resolve
        ContractFunction.canonical "function" := by
      funext key
      rw [ContractAbi.function, declares.functionsByName]
    rw [lookup]
    exact Declarations.faithful_resolve (fun _ _ => rfl) fun function member =>
      (functionNames function (declares.perm_functions.symm.subset member)).isPlain
  · have lookup : abi.event = (Declarations.ofList ContractEvent.name events).resolve
        ContractEvent.canonical "event" := by
      funext key
      rw [ContractAbi.event, declares.eventsByName]
    rw [lookup]
    exact Declarations.faithful_resolve (fun _ _ => rfl) fun event member =>
      (eventNames event (declares.perm_events.symm.subset member)).isPlain

/-- A document with two functions of one name. -/
def storeDocument : Value :=
  .list [
    .dict [("name", .text "put"), ("inputs", .list [.dict [("type", .text "uint256")]])],
    .dict [("type", .text "function"), ("name", .text "get")],
    .dict [("type", .text "event"), ("name", .text "Stored")],
    .dict [("name", .text "put"), ("inputs", .list [.dict [("type", .text "bytes")]])]]

/-- A function that takes a value of the given type. -/
def put (type : AbiType) : ContractFunction where
  name := "put"
  inputs := [{ type }]

/-- The entry of such a function. -/
def putEntry (type : String) : AbiEntry :=
  .plain "function" "put" [.mk "" type false none]

def storeEntries : List AbiEntry :=
  [putEntry "uint256", .plain "function" "get" [], .plain "event" "Stored" [], putEntry "bytes"]

theorem toFunction_putEntry {type : AbiType} (constructed : type.Constructed)
    (listed : type.IsListedBy (ParamEntry.componentsValue none)) :
    (putEntry (String.ofList type.documentSpelling)).toFunction = .ok (put type) :=
  AbiEntry.toFunction_plain
    (.cons (ParamEntry.toParam_of_isListedBy constructed listed "" false) .nil)

theorem toFunction_putEntry_uint256 :
    (putEntry "uint256").toFunction = .ok (put (.uint 256)) :=
  toFunction_putEntry (.uint (.int 256) rfl) rfl

theorem toFunction_putEntry_bytes : (putEntry "bytes").toFunction = .ok (put .bytes) :=
  toFunction_putEntry .bytes rfl

/-- The interface that the document describes. -/
def storeAbi : ContractAbi where
  functionsByName := [("put", [put (.uint 256), put .bytes]), ("get", [{ name := "get" }])]
  eventsByName := [("Stored", [{ name := "Stored" }])]

theorem ofEntries_store : ofEntries storeEntries = .ok storeAbi := by
  have get : (AbiEntry.plain "function" "get" []).toFunction = .ok { name := "get" } := rfl
  have stored (abi : ContractAbi) : abi.add (.plain "event" "Stored" []) = .ok
      { abi with eventsByName := abi.eventsByName.insert "Stored" { name := "Stored" } } := rfl
  rw [ofEntries, storeEntries, List.foldlM_cons, add_function rfl toFunction_putEntry_uint256,
    Outcome.ok_bind, List.foldlM_cons, add_function rfl get, Outcome.ok_bind, List.foldlM_cons,
    stored, Outcome.ok_bind, List.foldlM_cons, add_function rfl toFunction_putEntry_bytes]
  rfl

theorem ofDocument_store : ofDocument storeDocument = .ok storeAbi := by
  have read : AbiEntry.ofDocument storeDocument = .ok storeEntries := rfl
  rw [ofDocument, read, Outcome.ok_bind, ofEntries_store]

theorem functionNames_store :
    ∀ function ∈ storeAbi.functions, ContractFunction.IsIdentifier function.name := by
  change ∀ function ∈ [put (.uint 256), put .bytes, { name := "get" }],
    ContractFunction.IsIdentifier function.name
  simp only [List.forall_mem_cons, List.not_mem_nil, false_implies, implies_true, and_true]
  exact ⟨⟨by decide, by decide, List.all_eq_true.mp (by decide)⟩,
    ⟨by decide, by decide, List.all_eq_true.mp (by decide)⟩,
    ⟨by decide, by decide, List.all_eq_true.mp (by decide)⟩⟩

theorem eventNames_store :
    ∀ event ∈ storeAbi.events, ContractFunction.IsIdentifier event.name :=
  List.forall_mem_singleton.mpr ⟨by decide, by decide, List.all_eq_true.mp (by decide)⟩

theorem declared_store : AbiEntry.declared "function" AbiEntry.toFunction storeEntries =
    .ok [put (.uint 256), { name := "get" }, put .bytes] :=
  Outcome.mapM_eq_ok_iff.mpr
    (.cons toFunction_putEntry_uint256 (.cons rfl (.cons toFunction_putEntry_bytes .nil)))

theorem lookups_faithful_store :
    ∃ abi, ofDocument storeDocument = .ok abi ∧ abi.functions.length = 3 ∧
      abi.function "get" = .ok { name := "get" } ∧
      abi.function "put" = Outcome.fault
        (Declarations.ambiguousName "function" "put" ["put(uint256)", "put(bytes)"]) ∧
      (∃ found, abi.function "put(bytes)" = .ok found ∧ found.canonical = "put(bytes)") ∧
      abi.event "Stored" = .ok { name := "Stored" } := by
  rcases lookups_faithful ofDocument_store functionNames_store eventNames_store with
    ⟨entries, functions, events, read, declaredFunctions, declaredEvents, _, _, ofFunctions,
      ofEvents⟩
  have sameEntries : storeEntries = entries := Except.ok.inj (id read)
  subst sameEntries
  have sameFunctions : functions = [put (.uint 256), { name := "get" }, put .bytes] :=
    Except.ok.inj (declaredFunctions.symm.trans declared_store)
  have sameEvents : events = [{ name := "Stored" }] :=
    (Except.ok.inj declaredEvents).symm
  subst sameFunctions sameEvents
  refine ⟨_, ofDocument_store, rfl, (ofFunctions.ofName "get" _ (by decide)).mpr rfl,
    ofFunctions.ofSharedName "put" (by decide) (by decide), ?_,
    (ofEvents.ofName "Stored" _ (by decide)).mpr rfl⟩
  rcases ofFunctions.ofCanonical (put .bytes) (by simp) with ⟨found, _, resolved, same⟩
  exact ⟨found, resolved, same⟩

end ContractAbi

end ContractClient
