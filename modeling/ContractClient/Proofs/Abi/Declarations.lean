import ContractClient.Abi.Contract
import ContractClient.Proofs.Abi.Construction
import Mathlib.Data.List.Induction

/-!
# What documents declare

The entries of a document declare functions, events and custom errors. An interface keeps functions
and events in tables by name: under every name stands everything that has it, in the order of the
document (`Declarations.named_ofList`), and nothing is lost (`Declarations.perm_all_ofList`). Of the
custom errors with one selector it keeps the last (`ContractAbi.Declares.errorBySelector?_eq`).

`AbiEntry.declared` is what the entries of a kind declare. `ContractAbi.Declares` says that an
interface holds what the entries of a document declare and nothing else; it holds of every interface
that is loaded (`ContractAbi.declares_of_ofEntries`).
-/

namespace ContractClient

namespace Declarations

variable {α : Type} {declarations : Declarations α} {nameOf : α → String} {name other : String}
  {items : List α} {item : α}

theorem named_insert : (declarations.insert name item).named other =
    if name = other then declarations.named other ++ [item] else declarations.named other := by
  induction declarations with
  | nil => by_cases same : name = other <;> simp [insert, named, same]
  | cons group declarations ih =>
      rcases group with ⟨key, items⟩
      by_cases found : key = name
      · subst found
        by_cases same : key = other <;> simp [insert, named, same]
      · simp only [named] at ih
        by_cases first : key = other
        · subst first
          simp [insert, named, found, Ne.symm found]
        · simp [insert, named, found, first, ih]

theorem perm_all_insert :
    (declarations.insert name item).all.Perm (declarations.all ++ [item]) := by
  induction declarations with
  | nil => exact List.Perm.refl _
  | cons group declarations ih =>
      rcases group with ⟨key, items⟩
      by_cases found : key = name
      · simp only [insert, found, if_true, all, List.flatMap_cons, List.append_assoc]
        exact (List.perm_append_comm).append_left items
      · simp only [insert, found, if_false, all, List.flatMap_cons, List.append_assoc] at ih ⊢
        exact ih.append_left items

theorem mem_all_insert {added : α} :
    added ∈ (declarations.insert name item).all ↔ added ∈ declarations.all ∨ added = item := by
  rw [perm_all_insert.mem_iff]
  simp

/-- The table of several declarations. -/
def ofList (nameOf : α → String) (items : List α) : Declarations α :=
  items.foldl (fun declarations item => declarations.insert (nameOf item) item) []

theorem ofList_concat :
    ofList nameOf (items ++ [item]) = (ofList nameOf items).insert (nameOf item) item := by
  rw [ofList, List.foldl_concat, ← ofList]

theorem named_ofList :
    (ofList nameOf items).named name = items.filter fun item => nameOf item == name := by
  induction items using List.reverseRecOn with
  | nil => rfl
  | append_singleton items item ih =>
      rw [ofList_concat, named_insert, ih, List.filter_append]
      by_cases same : nameOf item = name <;> simp [same]

theorem perm_all_ofList : (ofList nameOf items).all.Perm items := by
  induction items using List.reverseRecOn with
  | nil => exact List.Perm.refl _
  | append_singleton items item ih =>
      rw [ofList_concat]
      exact perm_all_insert.trans (ih.append_right [item])

end Declarations

namespace AbiEntry

variable {entries : List AbiEntry} {entry : AbiEntry}

/-- What the entries of a kind declare, in the order of the document. -/
def declared {α : Type} (kind : String) (load : AbiEntry → Outcome α) (entries : List AbiEntry) :
    Outcome (List α) :=
  (entries.filter fun entry => entry.kind == kind).mapM load

section Declared

variable {α : Type} {kind : String} {load : AbiEntry → Outcome α} {items : List α} {item : α}

theorem declared_concat_of_eq (same : entry.kind = kind)
    (before : declared kind load entries = .ok items) (loaded : load entry = .ok item) :
    declared kind load (entries ++ [entry]) = .ok (items ++ [item]) := by
  rw [declared] at before ⊢
  simp [List.filter_append, same, before, loaded]

theorem declared_concat_of_ne (different : entry.kind ≠ kind) :
    declared kind load (entries ++ [entry]) = declared kind load entries := by
  simp [declared, List.filter_append, different]

theorem exists_of_mem_declared (all : declared kind load entries = .ok items)
    (member : item ∈ items) : ∃ entry ∈ entries, entry.kind = kind ∧ load entry = .ok item := by
  rcases Outcome.exists_of_mem_mapM all member with ⟨entry, inside, loaded⟩
  rcases List.mem_filter.mp inside with ⟨listed, same⟩
  exact ⟨entry, listed, by simpa using same, loaded⟩

end Declared

theorem toFunction_eq_ok_iff {function : ContractFunction} :
    entry.toFunction = .ok function ↔ ∃ inputs outputs,
      entry.inputs.mapM ParamEntry.toParam = .ok inputs ∧
      entry.outputs.mapM ParamEntry.toParam = .ok outputs ∧
      function = ⟨entry.name, inputs, outputs, entry.mutability⟩ := by
  simp [toFunction, Outcome.bind_eq_ok_iff, @eq_comm _ _ function]

/-- An entry that gives nothing but parameters. -/
def plain (kind name : String) (inputs : List ParamEntry) : AbiEntry :=
  ⟨kind, name, inputs, [], none, false, none, none⟩

theorem toFunction_plain {kind name : String} {inputs : List ParamEntry} {params : List Param}
    (read : List.Forall₂ (fun input param => input.toParam = .ok param) inputs params) :
    (plain kind name inputs).toFunction = .ok { name, inputs := params } :=
  toFunction_eq_ok_iff.mpr ⟨params, [], Outcome.mapM_eq_ok_iff.mpr read, rfl, rfl⟩

theorem toEvent_eq_ok_iff {event : ContractEvent} :
    entry.toEvent = .ok event ↔ ∃ params,
      entry.inputs.mapM ParamEntry.toParam = .ok params ∧
      event = ⟨entry.name, params, entry.anonymous⟩ ∧
      event.indexedParams.length ≤ ContractEvent.indexedLimit entry.anonymous := by
  simp only [toEvent, Outcome.bind_eq_ok_iff, ContractEvent.create,
    Outcome.refuse_fault_eq_ok_iff, Nat.not_lt, Except.ok.injEq]
  constructor
  · rintro ⟨params, read, limited, rfl⟩
    exact ⟨params, read, rfl, limited⟩
  · rintro ⟨params, read, rfl, limited⟩
    exact ⟨params, read, limited, rfl⟩

theorem toError_eq_ok_iff {error : ContractError} :
    entry.toError = .ok error ↔ ∃ inputs,
      entry.inputs.mapM ParamEntry.toParam = .ok inputs ∧ error = ⟨entry.name, inputs⟩ := by
  simp [toError, Outcome.bind_eq_ok_iff, @eq_comm _ _ error]

theorem toError_plain {kind name : String} {inputs : List ParamEntry} {params : List Param}
    (read : List.Forall₂ (fun input param => input.toParam = .ok param) inputs params) :
    (plain kind name inputs).toError = .ok { name, inputs := params } :=
  toError_eq_ok_iff.mpr ⟨params, Outcome.mapM_eq_ok_iff.mpr read, rfl⟩

end AbiEntry

namespace ContractAbi

variable {abi next : ContractAbi} {entries : List AbiEntry} {entry : AbiEntry}
  {functions : List ContractFunction} {events : List ContractEvent} {errors : List ContractError}

/-- What an entry adds to an interface. -/
inductive Adds (abi : ContractAbi) (entry : AbiEntry) : ContractAbi → Prop where
  | function {function : ContractFunction} (kind : entry.kind = "function")
      (loaded : entry.toFunction = .ok function) :
      Adds abi entry { abi with functionsByName := abi.functionsByName.insert entry.name function }
  | event {event : ContractEvent} (kind : entry.kind = "event")
      (loaded : entry.toEvent = .ok event) :
      Adds abi entry { abi with eventsByName := abi.eventsByName.insert entry.name event }
  | error {error : ContractError} (kind : entry.kind = "error")
      (loaded : entry.toError = .ok error) :
      Adds abi entry { abi with errorsBySelector := insertError abi.errorsBySelector error }
  | other {constructor? : Option ContractFunction} {hasFallback hasReceive fallbackPayable : Bool}
      (kind : entry.kind ∉ ["function", "event", "error"]) :
      Adds abi entry { abi with constructor?, hasFallback, hasReceive, fallbackPayable }

theorem add_function {function : ContractFunction} (kind : entry.kind = "function")
    (loaded : entry.toFunction = .ok function) :
    abi.add entry =
      .ok { abi with functionsByName := abi.functionsByName.insert entry.name function } := by
  simp only [ContractAbi.add, kind, loaded]
  rfl

theorem add_error {error : ContractError} (kind : entry.kind = "error")
    (loaded : entry.toError = .ok error) :
    abi.add entry =
      .ok { abi with errorsBySelector := insertError abi.errorsBySelector error } := by
  simp only [ContractAbi.add, kind, loaded]
  rfl

theorem adds_of_add (added : abi.add entry = .ok next) : abi.Adds entry next := by
  rw [add] at added
  split at added
  · next kind =>
      rcases Outcome.bind_eq_ok_iff.mp added with ⟨function, loaded, same⟩
      cases same
      exact .function kind loaded
  · next kind =>
      rcases Outcome.bind_eq_ok_iff.mp added with ⟨event, loaded, same⟩
      cases same
      exact .event kind loaded
  · next kind =>
      rcases Outcome.bind_eq_ok_iff.mp added with ⟨error, loaded, same⟩
      cases same
      exact .error kind loaded
  · next kind =>
      rcases Outcome.bind_eq_ok_iff.mp added with ⟨function, _, same⟩
      cases same
      exact .other (by simp [kind])
  · next kind =>
      cases added
      exact .other (by simp [kind])
  · next kind =>
      cases added
      exact .other (by simp [kind])
  · next noFunction noEvent noError _ _ _ =>
      cases added
      exact .other (by simpa using ⟨noFunction, noEvent, noError⟩)

/-- An interface holds what the entries of a document declare. -/
structure Declares (entries : List AbiEntry) (functions : List ContractFunction)
    (events : List ContractEvent) (errors : List ContractError) (abi : ContractAbi) : Prop where
  declaredFunctions : AbiEntry.declared "function" AbiEntry.toFunction entries = .ok functions
  declaredEvents : AbiEntry.declared "event" AbiEntry.toEvent entries = .ok events
  declaredErrors : AbiEntry.declared "error" AbiEntry.toError entries = .ok errors
  functionsByName : abi.functionsByName = .ofList ContractFunction.name functions
  eventsByName : abi.eventsByName = .ofList ContractEvent.name events
  errorsBySelector : abi.errorsBySelector = errors.foldl insertError []

theorem declares_empty : Declares [] [] [] [] {} :=
  ⟨rfl, rfl, rfl, rfl, rfl, rfl⟩

theorem Declares.add (declares : Declares entries functions events errors abi)
    (adds : abi.Adds entry next) : ∃ functions events errors,
      Declares (entries ++ [entry]) functions events errors next := by
  cases adds with
  | @function function kind loaded =>
      rcases AbiEntry.toFunction_eq_ok_iff.mp loaded with ⟨_, _, _, _, made⟩
      have name : entry.name = function.name := by rw [made]
      refine ⟨functions ++ [function], events, errors,
        AbiEntry.declared_concat_of_eq kind declares.declaredFunctions loaded, ?_, ?_, ?_,
        declares.eventsByName, declares.errorsBySelector⟩
      · rw [AbiEntry.declared_concat_of_ne (by simp [kind]), declares.declaredEvents]
      · rw [AbiEntry.declared_concat_of_ne (by simp [kind]), declares.declaredErrors]
      · rw [declares.functionsByName, name, Declarations.ofList_concat]
  | @event event kind loaded =>
      rcases AbiEntry.toEvent_eq_ok_iff.mp loaded with ⟨_, _, made, _⟩
      have name : entry.name = event.name := by rw [made]
      refine ⟨functions, events ++ [event], errors, ?_,
        AbiEntry.declared_concat_of_eq kind declares.declaredEvents loaded, ?_,
        declares.functionsByName, ?_, declares.errorsBySelector⟩
      · rw [AbiEntry.declared_concat_of_ne (by simp [kind]), declares.declaredFunctions]
      · rw [AbiEntry.declared_concat_of_ne (by simp [kind]), declares.declaredErrors]
      · rw [declares.eventsByName, name, Declarations.ofList_concat]
  | @error error kind loaded =>
      refine ⟨functions, events, errors ++ [error], ?_, ?_,
        AbiEntry.declared_concat_of_eq kind declares.declaredErrors loaded,
        declares.functionsByName, declares.eventsByName, ?_⟩
      · rw [AbiEntry.declared_concat_of_ne (by simp [kind]), declares.declaredFunctions]
      · rw [AbiEntry.declared_concat_of_ne (by simp [kind]), declares.declaredEvents]
      · rw [declares.errorsBySelector, List.foldl_concat]
  | other kind =>
      simp only [List.mem_cons, List.not_mem_nil, or_false, not_or] at kind
      refine ⟨functions, events, errors, ?_, ?_, ?_, declares.functionsByName,
        declares.eventsByName, declares.errorsBySelector⟩
      · rw [AbiEntry.declared_concat_of_ne kind.1, declares.declaredFunctions]
      · rw [AbiEntry.declared_concat_of_ne kind.2.1, declares.declaredEvents]
      · rw [AbiEntry.declared_concat_of_ne kind.2.2, declares.declaredErrors]

/-- What holds of the empty interface and is kept when an entry is added holds of every interface
that is loaded. -/
theorem ofEntries_induction {motive : List AbiEntry → ContractAbi → Prop} (empty : motive [] {})
    (step : ∀ entries entry abi next, motive entries abi → abi.add entry = .ok next →
      motive (entries ++ [entry]) next)
    (loaded : ofEntries entries = .ok abi) : motive entries abi := by
  -- From the end of the document: an entry is added to what those before it declare.
  induction entries using List.reverseRecOn generalizing abi with
  | nil =>
      cases loaded
      exact empty
  | append_singleton entries entry ih =>
      rw [ofEntries, List.foldlM_append] at loaded
      rcases Outcome.bind_eq_ok_iff.mp loaded with ⟨before, loadedBefore, last⟩
      rcases Outcome.bind_eq_ok_iff.mp last with ⟨_, added, ⟨⟩⟩
      exact step entries entry before abi (ih loadedBefore) added

/-- An interface that is loaded holds what its document declares. -/
theorem declares_of_ofEntries (loaded : ofEntries entries = .ok abi) :
    ∃ functions events errors, Declares entries functions events errors abi := by
  refine ofEntries_induction (motive := fun entries abi => ∃ functions events errors,
    Declares entries functions events errors abi) ⟨[], [], [], declares_empty⟩ ?_ loaded
  rintro entries entry abi next ⟨functions, events, errors, declares⟩ added
  exact declares.add (adds_of_add added)

namespace Declares

variable (declares : Declares entries functions events errors abi)

include declares

theorem perm_functions : abi.functions.Perm functions := by
  rw [ContractAbi.functions, declares.functionsByName]
  exact Declarations.perm_all_ofList

theorem perm_events : abi.events.Perm events := by
  rw [ContractAbi.events, declares.eventsByName]
  exact Declarations.perm_all_ofList

theorem constructed_of_mem_functions {function : ContractFunction}
    (member : function ∈ functions) : ∀ type ∈ Param.types function.inputs, type.Constructed := by
  rcases AbiEntry.exists_of_mem_declared declares.declaredFunctions member with
    ⟨entry, _, _, loaded⟩
  rcases AbiEntry.toFunction_eq_ok_iff.mp loaded with ⟨_, _, read, _, rfl⟩
  exact Param.constructed_of_mapM read

theorem constructed_of_mem_errors {error : ContractError} (member : error ∈ errors) :
    ∀ type ∈ Param.types error.inputs, type.Constructed := by
  rcases AbiEntry.exists_of_mem_declared declares.declaredErrors member with
    ⟨entry, _, _, loaded⟩
  rcases AbiEntry.toError_eq_ok_iff.mp loaded with ⟨_, read, rfl⟩
  exact Param.constructed_of_mapM read

end Declares

section Errors

variable {table : List (Bytes × ContractError)} {selector : Bytes} {error : ContractError}

theorem find?_insertError :
    ((insertError table error).find? fun entry => entry.1 == selector).map Prod.snd =
      if error.selector = selector then some error
      else (table.find? fun entry => entry.1 == selector).map Prod.snd := by
  induction table with
  | nil => by_cases same : error.selector = selector <;> simp [insertError, same]
  | cons entry table ih =>
      rcases entry with ⟨key, other⟩
      by_cases found : key = error.selector
      · subst found
        by_cases same : error.selector = selector <;> simp [insertError, same]
      · by_cases first : key = selector
        · subst first
          simp [insertError, found, Ne.symm found]
        · simp [insertError, found, first, ih]

/-- Under a selector stands the error that was declared last with it. -/
theorem Declares.errorBySelector?_eq (declares : Declares entries functions events errors abi) :
    abi.errorBySelector? selector =
      errors.reverse.find? fun error => error.selector == selector := by
  rw [errorBySelector?, declares.errorsBySelector]
  clear declares
  induction errors using List.reverseRecOn with
  | nil => rfl
  | append_singleton errors error ih =>
      rw [List.foldl_concat, find?_insertError, ih, List.reverse_concat]
      by_cases same : error.selector = selector
      · rw [if_pos same, List.find?_cons_of_pos (by simpa using same)]
      · rw [if_neg same, List.find?_cons_of_neg (by simpa using same)]

theorem Declares.errorBySelector?_eq_none
    (declares : Declares entries functions events errors abi) :
    abi.errorBySelector? selector = none ↔ ∀ error ∈ errors, error.selector ≠ selector := by
  simp [declares.errorBySelector?_eq]

theorem Declares.errorBySelector?_last {before after : List ContractError}
    (declares : Declares entries functions events (before ++ error :: after) abi)
    (last : ∀ other ∈ after, other.selector ≠ error.selector) :
    abi.errorBySelector? error.selector = some error := by
  have later : (after.reverse.find? fun other => other.selector == error.selector) = none := by
    simpa using last
  rw [declares.errorBySelector?_eq, List.reverse_append, List.reverse_cons, List.append_assoc,
    List.find?_append, later]
  simp

end Errors

end ContractAbi

end ContractClient
