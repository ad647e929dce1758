import ContractClient.Abi.Loading
import ContractClient.Proofs.Abi.Lookup
import ContractClient.Proofs.Abi.Numerals

/-!
# Loading documents

A document is loaded whole or not at all. If it is loaded, all types of the interface are
well-formed and no event has too many indexed parameters (`ContractAbi.IsSound`), and all its
entries of functions, events and custom errors are represented (`ContractAbi.Represents`). If it is
not, that is a fault of the document, with one exception: a numeral in a type can be too long to be
converted to a number, and this is met as a condition and not as a fault.
`ContractAbi.MeetsLongNumeral` says when, and `ContractAbi.allOrNothing_iff` that nothing else can
happen.
-/

namespace ContractClient

namespace ParamEntry

variable {param : ParamEntry} {params : List ParamEntry}

/-- Reading several parameters meets a numeral that is too long, after those before it are read. -/
def AnyMeetsLongNumeral (params : List ParamEntry) : Prop :=
  ∃ earlier param later read, params = earlier ++ param :: later ∧
    earlier.mapM toParam = .ok read ∧
    AbiType.MeetsLongNumeral param.components param.typeText

theorem settles_toParam (param : ParamEntry) :
    Settles (AbiType.MeetsLongNumeral param.components param.typeText) param.toParam := by
  rcases toParam_eq with ⟨name, indexed, same⟩
  rw [same]
  exact (AbiType.settles_ofParts param.components param.typeText).bind fun _ _ => .ok _

theorem settles_toParams (params : List ParamEntry) :
    Settles (AnyMeetsLongNumeral params) (params.mapM toParam) := by
  apply Settles.mapM
  intro earlier param later read divided readable
  exact (settles_toParam param).mono fun meets =>
    ⟨earlier, param, later, read, divided, readable, meets⟩

theorem AnyMeetsLongNumeral.mapM_eq (meets : AnyMeetsLongNumeral params) :
    params.mapM toParam = Outcome.condition .badValue := by
  rcases meets with ⟨earlier, param, later, read, rfl, readable, meets⟩
  apply Outcome.mapM_eq_error_of_first readable
  rcases toParam_eq with ⟨name, indexed, same⟩
  rw [same, typeOf, meets.ofParts_eq]
  rfl

end ParamEntry

namespace AbiEntry

variable {abi : ContractAbi} {entry : AbiEntry}

/-- Loading an entry meets a numeral that is too long: among its parameters or, if it gives a
function, among its results. -/
inductive MeetsLongNumeral (entry : AbiEntry) : Prop where
  | input (kind : entry.kind ∈ ["function", "constructor", "event", "error"])
      (meets : ParamEntry.AnyMeetsLongNumeral entry.inputs)
  | output {inputs : List Param} (kind : entry.kind ∈ ["function", "constructor"])
      (readable : entry.inputs.mapM ParamEntry.toParam = .ok inputs)
      (meets : ParamEntry.AnyMeetsLongNumeral entry.outputs)

theorem settles_toFunction (kind : entry.kind ∈ ["function", "constructor"]) :
    Settles entry.MeetsLongNumeral entry.toFunction := by
  have known : entry.kind ∈ ["function", "constructor", "event", "error"] :=
    List.mem_append_left ["event", "error"] kind
  apply ((ParamEntry.settles_toParams entry.inputs).mono (.input known)).bind
  intro inputs readable
  apply ((ParamEntry.settles_toParams entry.outputs).mono (.output kind readable)).bind
  intro outputs _
  exact .ok _

theorem settles_toEvent (kind : entry.kind = "event") :
    Settles entry.MeetsLongNumeral entry.toEvent := by
  apply ((ParamEntry.settles_toParams entry.inputs).mono (.input (by simp [kind]))).bind
  intro inputs _
  rw [ContractEvent.create]
  split
  · exact .refused Fault.kind_abiParse
  · exact .ok _

theorem settles_toError (kind : entry.kind = "error") :
    Settles entry.MeetsLongNumeral entry.toError := by
  apply ((ParamEntry.settles_toParams entry.inputs).mono (.input (by simp [kind]))).bind
  intro inputs _
  exact .ok _

theorem settles_readAll (number : Nat) (values : List Value) :
    Settles False (readAll number values) := by
  induction values generalizing number with
  | nil => exact .ok []
  | cons value values ih =>
      rw [readAll]
      split
      · exact (ih (number + 1)).bind fun _ _ => .ok _
      · exact .refused Fault.kind_abiParse

theorem settles_parseDocument (document : Value) : Settles False (parseDocument document) := by
  have found : ∀ value?, Settles False (parseDocument.found value?) := by
    intro value?
    cases value? with
    | none => exact .refused Fault.kind_abiParse
    | some value => exact .ok value
  cases document with
  | text characters => exact found _
  | bytes octets => exact found _
  | brokenText codePoints => exact .refused Fault.kind_abiParse
  | _ => exact .ok _

theorem settles_ofDocument (document : Value) : Settles False (ofDocument document) := by
  apply (settles_parseDocument document).bind
  intro parsed _
  simp only [Outcome.pure_eq_ok, Outcome.ok_bind, Outcome.fault_bind]
  split
  · split
    · split
      · exact settles_readAll 0 _
      · exact .refused Fault.kind_abiParse
    · exact .refused Fault.kind_abiParse
  · split
    · exact settles_readAll 0 _
    · exact .refused Fault.kind_abiParse

theorem settles_add : Settles entry.MeetsLongNumeral (abi.add entry) := by
  rw [ContractAbi.add]
  split
  · next kind => exact (settles_toFunction (by simp [kind])).bind fun _ _ => .ok _
  · next kind => exact (settles_toEvent kind).bind fun _ _ => .ok _
  · next kind => exact (settles_toError kind).bind fun _ _ => .ok _
  · next kind => exact (settles_toFunction (by simp [kind])).bind fun _ _ => .ok _
  · exact .ok _
  · exact .ok _
  · exact .ok _

theorem MeetsLongNumeral.add_eq (meets : entry.MeetsLongNumeral) :
    abi.add entry = Outcome.condition .badValue := by
  cases meets with
  | input kind meets =>
      simp only [List.mem_cons, List.not_mem_nil, or_false] at kind
      rcases kind with kind | kind | kind | kind <;>
        simp [ContractAbi.add, kind, toFunction, toEvent, toError,
          meets.mapM_eq]
  | output kind readable meets =>
      simp only [List.mem_cons, List.not_mem_nil, or_false] at kind
      rcases kind with kind | kind <;>
        simp [ContractAbi.add, kind, toFunction, readable, meets.mapM_eq]

end AbiEntry

/-- The types of all parameters are well-formed. -/
def Param.AreWellTyped (params : List Param) : Prop :=
  ∀ type ∈ Param.types params, type.WellFormed

theorem Param.areWellTyped_of_mapM {entries : List ParamEntry} {params : List Param}
    (read : entries.mapM ParamEntry.toParam = .ok params) : Param.AreWellTyped params := by
  intro type member
  exact (Param.constructed_of_mapM read type member).wellFormed

def ContractFunction.IsWellTyped (function : ContractFunction) : Prop :=
  Param.AreWellTyped function.inputs ∧ Param.AreWellTyped function.outputs

namespace AbiEntry

variable {entry : AbiEntry}

theorem isWellTyped_of_toFunction {function : ContractFunction}
    (loaded : entry.toFunction = .ok function) : function.IsWellTyped := by
  rcases toFunction_eq_ok_iff.mp loaded with ⟨inputs, outputs, readInputs, readOutputs, rfl⟩
  exact ⟨Param.areWellTyped_of_mapM readInputs, Param.areWellTyped_of_mapM readOutputs⟩

theorem isWellTyped_of_toEvent {event : ContractEvent} (loaded : entry.toEvent = .ok event) :
    Param.AreWellTyped event.params ∧
      event.indexedParams.length ≤ ContractEvent.indexedLimit event.anonymous := by
  rcases toEvent_eq_ok_iff.mp loaded with ⟨params, read, rfl, limited⟩
  exact ⟨Param.areWellTyped_of_mapM read, limited⟩

theorem isWellTyped_of_toError {error : ContractError} (loaded : entry.toError = .ok error) :
    Param.AreWellTyped error.inputs := by
  rcases toError_eq_ok_iff.mp loaded with ⟨inputs, read, rfl⟩
  exact Param.areWellTyped_of_mapM read

end AbiEntry

namespace ContractAbi

variable {abi next : ContractAbi} {entry : AbiEntry} {entries : List AbiEntry} {document : Value}

/-- All types of an interface are well-formed, and no event has too many indexed parameters. -/
structure IsSound (abi : ContractAbi) : Prop where
  functions : ∀ function ∈ abi.functions, function.IsWellTyped
  events : ∀ event ∈ abi.events, Param.AreWellTyped event.params ∧
    event.indexedParams.length ≤ ContractEvent.indexedLimit event.anonymous
  errors : ∀ error ∈ abi.errors, Param.AreWellTyped error.inputs
  constructor : ∀ function, abi.constructor? = some function → function.IsWellTyped

theorem mem_insertError {table : List (Bytes × ContractError)} {error other : ContractError}
    (member : other ∈ (insertError table error).map Prod.snd) :
    other ∈ table.map Prod.snd ∨ other = error := by
  induction table with
  | nil => exact .inr (by simpa [insertError] using member)
  | cons first table ih =>
      rcases first with ⟨selector, known⟩
      rw [insertError] at member
      split at member
      · rw [List.map_cons, List.mem_cons] at member ⊢
        rcases member with rfl | member
        · exact .inr rfl
        · exact .inl (.inr member)
      · rw [List.map_cons, List.mem_cons] at member ⊢
        rcases member with rfl | member
        · exact .inl (.inl rfl)
        · exact (ih member).imp_left .inr

/-- What an entry adds is sound. -/
theorem IsSound.add (sound : abi.IsSound) (added : abi.add entry = .ok next) : next.IsSound := by
  rw [ContractAbi.add] at added
  split at added
  · rcases Outcome.bind_eq_ok_iff.mp added with ⟨function, loaded, ⟨⟩⟩
    refine ⟨?_, sound.events, sound.errors, sound.constructor⟩
    intro other member
    rcases Declarations.mem_all_insert.mp member with known | rfl
    · exact sound.functions other known
    · exact AbiEntry.isWellTyped_of_toFunction loaded
  · rcases Outcome.bind_eq_ok_iff.mp added with ⟨event, loaded, ⟨⟩⟩
    refine ⟨sound.functions, ?_, sound.errors, sound.constructor⟩
    intro other member
    rcases Declarations.mem_all_insert.mp member with known | rfl
    · exact sound.events other known
    · exact AbiEntry.isWellTyped_of_toEvent loaded
  · rcases Outcome.bind_eq_ok_iff.mp added with ⟨error, loaded, ⟨⟩⟩
    refine ⟨sound.functions, sound.events, ?_, sound.constructor⟩
    intro other member
    rcases mem_insertError member with known | rfl
    · exact sound.errors other known
    · exact AbiEntry.isWellTyped_of_toError loaded
  · rcases Outcome.bind_eq_ok_iff.mp added with ⟨function, loaded, ⟨⟩⟩
    refine ⟨sound.functions, sound.events, sound.errors, ?_⟩
    rintro _ ⟨⟩
    exact AbiEntry.isWellTyped_of_toFunction loaded
  · cases added
    exact ⟨sound.functions, sound.events, sound.errors, sound.constructor⟩
  · cases added
    exact ⟨sound.functions, sound.events, sound.errors, sound.constructor⟩
  · cases added
    exact sound

theorem isSound_of_ofEntries (loaded : ofEntries entries = .ok abi) : abi.IsSound := by
  refine ofEntries_induction (motive := fun _ abi => abi.IsSound) ⟨nofun, nofun, nofun, nofun⟩ ?_
    loaded
  intro entries entry abi next sound added
  exact sound.add added

/-- Every entry that declares something stands for something in the interface. Of custom errors with
one selector only one is kept. -/
structure Represents (entries : List AbiEntry) (abi : ContractAbi) : Prop where
  functions : ∃ functions,
    AbiEntry.declared "function" AbiEntry.toFunction entries = .ok functions ∧
      abi.functions.Perm functions
  events : ∃ events, AbiEntry.declared "event" AbiEntry.toEvent entries = .ok events ∧
    abi.events.Perm events
  errors : ∃ errors, AbiEntry.declared "error" AbiEntry.toError entries = .ok errors ∧
    ∀ error ∈ errors, ∃ kept ∈ errors, kept ∈ abi.errors ∧ kept.selector = error.selector

theorem represents_of_ofEntries (loaded : ofEntries entries = .ok abi) :
    Represents entries abi := by
  rcases declares_of_ofEntries loaded with ⟨functions, events, errors, declares⟩
  refine ⟨⟨functions, declares.declaredFunctions, declares.perm_functions⟩,
    ⟨events, declares.declaredEvents, declares.perm_events⟩,
    ⟨errors, declares.declaredErrors, ?_⟩⟩
  intro error member
  cases found : abi.errorBySelector? error.selector with
  | none => exact absurd rfl (declares.errorBySelector?_eq_none.mp found error member)
  | some kept =>
      have declared := found
      rw [declares.errorBySelector?_eq] at declared
      refine ⟨kept, List.mem_reverse.mp (List.mem_of_find?_eq_some declared), ?_,
        by simpa using List.find?_some declared⟩
      rw [errorBySelector?, Option.map_eq_some_iff] at found
      rcases found with ⟨standing, inside, rfl⟩
      exact List.mem_map_of_mem (List.mem_of_find?_eq_some inside)

/-- Loading a document meets a numeral that is too long, after the entries before it are loaded. -/
def MeetsLongNumeral (document : Value) : Prop :=
  ∃ earlier entry later before, AbiEntry.ofDocument document = .ok (earlier ++ entry :: later) ∧
    ofEntries earlier = .ok before ∧ entry.MeetsLongNumeral

theorem MeetsLongNumeral.ofDocument_eq (meets : MeetsLongNumeral document) :
    ofDocument document = Outcome.condition .badValue := by
  rcases meets with ⟨earlier, entry, later, before, read, loaded, meets⟩
  rw [ofEntries] at loaded
  rw [ofDocument, read, Outcome.ok_bind, ofEntries, List.foldlM_append, loaded, Outcome.ok_bind,
    List.foldlM_cons, meets.add_eq]
  rfl

theorem settles_ofDocument (document : Value) :
    Settles (MeetsLongNumeral document) (ofDocument document) := by
  apply ((AbiEntry.settles_ofDocument document).mono False.elim).bind
  intro entries read
  apply Settles.foldlM
  intro earlier entry later before divided loaded
  subst divided
  exact AbiEntry.settles_add.mono fun meets => ⟨earlier, entry, later, before, read, loaded, meets⟩

theorem add_of_unknown (unknown : ¬knownKinds.contains entry.kind) : abi.add entry = .ok abi := by
  rw [ContractAbi.add]
  split
  all_goals first | rfl | simp_all [knownKinds]

theorem ofEntries_filter (entries : List AbiEntry) :
    ofEntries (entries.filter fun entry => knownKinds.contains entry.kind) = ofEntries entries := by
  have skipping : (fun (abi : ContractAbi) (entry : AbiEntry) =>
      if knownKinds.contains entry.kind then abi.add entry else pure abi) = add := by
    funext abi entry
    split
    · rfl
    · next unknown => exact (add_of_unknown unknown).symm
  rw [ofEntries, List.foldlM_filter, skipping]
  rfl

theorem noteUnknown_andThen {α : Type} (kinds : List String) (rest : Activity α) :
    ∃ notes : List Event,
      (noteUnknown kinds >>= fun _ => rest) = notes.foldr Activity.tell rest := by
  induction kinds with
  | nil => exact ⟨[], rfl⟩
  | cons kind kinds ih =>
      rcases ih with ⟨notes, same⟩
      exact ⟨_ :: notes, congrArg (Activity.tell _) same⟩

/-- Loading notes the entries of unknown kinds, and does nothing else but load. -/
theorem load_eq (document : Value) :
    ∃ notes : List Event,
      load document = notes.foldr Activity.tell (.done (ofDocument document)) := by
  rw [load, ofDocument]
  cases AbiEntry.ofDocument document with
  | error failure => exact ⟨[], rfl⟩
  | ok entries => exact noteUnknown_andThen _ _

/-- A document is loaded whole, or refused as malformed. -/
inductive AllOrNothing (document : Value) : Prop where
  | loaded {entries : List AbiEntry} {abi : ContractAbi}
      (read : AbiEntry.ofDocument document = .ok entries) (loaded : ofDocument document = .ok abi)
      (sound : abi.IsSound) (represents : Represents entries abi)
  | refused {fault : Fault} (kind : fault.kind = .abiParse)
      (refused : ofDocument document = Outcome.fault fault)

theorem MeetsLongNumeral.not_allOrNothing (meets : MeetsLongNumeral document) :
    ¬AllOrNothing document := by
  intro allOrNothing
  have met := meets.ofDocument_eq
  cases allOrNothing with
  | loaded read loaded sound represents =>
      rw [loaded] at met
      cases met
  | refused kind refused =>
      rw [refused] at met
      cases met

/-- Documents are loaded whole or refused as malformed, except those with a numeral that is too
long. Entries of unknown kinds change nothing but what is noted. -/
theorem allOrNothing_iff (document : Value) :
    (AllOrNothing document ↔ ¬MeetsLongNumeral document) ∧
      (MeetsLongNumeral document → ofDocument document = Outcome.condition .badValue) ∧
      (∃ notes : List Event,
        load document = notes.foldr Activity.tell (.done (ofDocument document))) ∧
      ∀ entries,
        ofEntries (entries.filter fun entry => knownKinds.contains entry.kind) =
          ofEntries entries := by
  refine ⟨⟨?_, ?_⟩, MeetsLongNumeral.ofDocument_eq, load_eq document, ofEntries_filter⟩
  · intro allOrNothing meets
    exact meets.not_allOrNothing allOrNothing
  · intro unmet
    cases ending : ofDocument document with
    | ok abi =>
        rcases Outcome.bind_eq_ok_iff.mp ending with ⟨entries, read, loaded⟩
        exact .loaded read ending (isSound_of_ofEntries loaded) (represents_of_ofEntries loaded)
    | error failure =>
        have settles := settles_ofDocument document
        rw [ending] at settles
        cases settles with
        | refused kind => exact .refused kind ending
        | long met => exact absurd met unmet

theorem allOrNothing_store :
    ofDocument storeDocument = .ok storeAbi ∧ ¬MeetsLongNumeral storeDocument ∧
      AllOrNothing storeDocument := by
  have settled := allOrNothing_iff storeDocument
  have unmet : ¬MeetsLongNumeral storeDocument := by
    intro meets
    have met := settled.2.1 meets
    rw [ofDocument_store] at met
    cases met
  exact ⟨ofDocument_store, unmet, settled.1.mpr unmet⟩

/-- A document with a function that takes a value of the type with the given text. -/
def putDocument (type : String) : Value :=
  .list [.dict [("name", .text "put"), ("inputs", .list [.dict [("type", .text type)]])]]

/-- A numeral with one digit more than is converted. -/
def longNumeral : List Char :=
  List.replicate (Text.digitLimit + 1) '1'

theorem isLongNumeral_longNumeral : AbiType.IsLongNumeral longNumeral := by
  constructor
  · intro character member
    rw [List.eq_of_mem_replicate member]
    decide
  · rw [longNumeral, List.length_replicate]
    exact Nat.lt_succ_self _

theorem meetsLongNumeral_put :
    MeetsLongNumeral (putDocument (String.ofList ("uint".toList ++ longNumeral))) := by
  have visible : ∀ character ∈ "uint".toList ++ longNumeral, Text.IsVisible character := by
    rw [List.forall_mem_append]
    refine ⟨Text.isVisible_of_all (by decide), ?_⟩
    intro character member
    rw [List.eq_of_mem_replicate member]
    decide
  have inWidth : AbiType.MeetsLongNumeral none ("uint".toList ++ longNumeral) :=
    .size AbiType.uint_sized (Text.strip_of_visible visible) isLongNumeral_longNumeral
  refine ⟨[], putEntry _, [], {}, rfl, rfl, .input (by simp [putEntry, AbiEntry.plain]) ?_⟩
  refine ⟨[], .mk "" _ false none, [], [], rfl, rfl, ?_⟩
  rwa [ParamEntry.components, ParamEntry.typeText, String.toList_ofList]

/-- A width with too many digits is no fault of the document. -/
theorem not_allOrNothing_put :
    ofDocument (putDocument (String.ofList ("uint".toList ++ longNumeral))) =
        Outcome.condition .badValue ∧
      ¬AllOrNothing (putDocument (String.ofList ("uint".toList ++ longNumeral))) :=
  ⟨meetsLongNumeral_put.ofDocument_eq, meetsLongNumeral_put.not_allOrNothing⟩

end ContractAbi

end ContractClient
