import ContractClient.Proofs.Abi.Document

/-!
# Readers build what can be built

Whatever text or document a type is read from, it is built from its parts, so it is one that can be
built (`AbiType.constructed_of_ofText`, `AbiType.constructed_of_ofDocument`). The parameters that an
interface document declares have such types (`ParamEntry.constructed_of_toParam`).
-/

namespace ContractClient

namespace AbiType

variable {type : AbiType}

theorem constructed_of_elementary {source : String} {text : List Char}
    (read : elementary source text = .ok type) : type.Constructed := by
  rw [elementary] at read
  split at read
  · cases read
    exact .address
  split at read
  · cases read
    exact .bool
  split at read
  · cases read
    exact .string
  split at read
  · cases read
    exact .bytes
  split at read
  · exact .uint _ read
  · rcases Outcome.bind_eq_ok_iff.mp read with ⟨bits, _, built⟩
    exact .uint bits built
  · exact .int _ read
  · rcases Outcome.bind_eq_ok_iff.mp read with ⟨bits, _, built⟩
    exact .int bits built
  · rcases Outcome.bind_eq_ok_iff.mp read with ⟨size, _, built⟩
    exact .fixedBytes size built
  · simp [malformed] at read

/-- What the word `tuple` stands for can be built. -/
def BuildsTuples (tupleType : String → Outcome AbiType) : Prop :=
  ∀ source type, tupleType source = .ok type → type.Constructed

theorem buildsTuples_withoutComponents : BuildsTuples withoutComponents := by
  intro source type read
  simp [withoutComponents, malformed] at read

theorem constructed_emptyTuple : Constructed (.tuple []) :=
  .tuple (List.forall_mem_nil _) rfl

/-- A tuple of types that are read one by one can be built if all of them can. -/
theorem constructed_of_mapM {α : Type} {items : List α} {readItem : α → Outcome AbiType}
    (read : items.mapM readItem >>= tupleOf = .ok type)
    (each : ∀ item ∈ items, ∀ type, readItem item = .ok type → type.Constructed) :
    type.Constructed := by
  rcases Outcome.bind_eq_ok_iff.mp read with ⟨types, readTypes, built⟩
  refine .tuple (fun component member => ?_) built
  rcases Outcome.exists_of_mem_mapM readTypes member with ⟨item, inside, readOne⟩
  exact each item inside component readOne

/-- A type is read from its text by building it from what its parts are read as. -/
theorem constructed_of_ofText {tupleType : String → Outcome AbiType} {characters : List Char}
    (builds : BuildsTuples tupleType) (read : ofText tupleType characters = .ok type) :
    type.Constructed := by
  fun_induction ofText tupleType characters generalizing type with
  | case1 => simp [malformed] at read
  | case2 =>
      rename_i ih
      rcases Outcome.bind_eq_ok_iff.mp read with ⟨item, readItem, built⟩
      split at built
      · exact .array (ih builds readItem) built
      · rcases Outcome.bind_eq_ok_iff.mp built with ⟨length, _, built⟩
        exact .fixedArray length (ih builds readItem) built
  | case3 => exact builds _ _ read
  | case4 =>
      cases read
      exact constructed_emptyTuple
  | case5 => simp [malformed] at read
  | case6 =>
      rename_i ih
      exact constructed_of_mapM read fun member _ _ => ih member buildsTuples_withoutComponents
  | case7 => exact constructed_of_elementary read

section Documents

variable {typeText components item : Value}

/-- Whatever stands for the word `tuple` beside some components can be built if each of them can. -/
theorem buildsTuples_tupleOfComponents
    (each : ∀ items, components.items? = some items → ∀ item ∈ items, ∀ type,
      ofComponent item = .ok type → type.Constructed) :
    BuildsTuples (tupleOfComponents components) := by
  intro source type read
  cases listed : components.items? with
  | some items =>
      rw [tupleOfComponents_of_items? listed] at read
      exact constructed_of_mapM read (each items listed)
  | none =>
      cases components with
      | list | tuple | sequence => cases listed
      | null => exact buildsTuples_withoutComponents source type read
      | _ =>
          rcases Outcome.bind_eq_ok_iff.mp read with ⟨elements, _, built⟩
          split at built
          · cases built
            exact constructed_emptyTuple
          · cases built

theorem ofDocument_brokenText (codePoints : List Nat) :
    ofDocument (.brokenText codePoints) components =
      ofText (tupleOfComponents components) (Value.brokenText codePoints).display.toList := by
  rw [ofDocument]
  congr 1
  funext source
  cases components with
  | list items | tuple items | sequence _ _ items =>
      simp only [tupleOfComponents]
      rw [List.mapM_subtype (g := ofComponent) (fun _ _ => rfl), List.unattach_attach]
  | _ => rfl

theorem constructed_of_ofDocument_of_forall
    (each : ∀ items, components.items? = some items → ∀ item ∈ items, ∀ type,
      ofComponent item = .ok type → type.Constructed)
    (read : ofDocument typeText components = .ok type) : type.Constructed := by
  have builds := buildsTuples_tupleOfComponents each
  cases typeText with
  | text text =>
      rw [ofDocument_text] at read
      exact constructed_of_ofText builds read
  | brokenText codePoints =>
      rw [ofDocument_brokenText] at read
      exact constructed_of_ofText builds read
  | _ => simp [ofDocument, malformed] at read

theorem sizeOf_lt_of_mem_items? {items : List Value} (listed : components.items? = some items)
    (member : item ∈ items) : sizeOf item < sizeOf components := by
  have smaller := List.sizeOf_lt_of_mem member
  cases components with
  | list | tuple | sequence =>
      cases listed
      simp only [Value.list.sizeOf_spec, Value.tuple.sizeOf_spec, Value.sequence.sizeOf_spec]
      omega
  | _ => cases listed

/-- By induction on the size of a component: its own components are inside it. -/
theorem constructed_of_ofComponent (item : Value) (type : AbiType)
    (read : ofComponent item = .ok type) : type.Constructed := by
  cases item with
  | dict entries =>
      rw [ofComponent] at read
      split at read
      · next nested found =>
          refine constructed_of_ofDocument_of_forall (fun items listed inner member => ?_) read
          have inside := sizeOf_lt_of_mem_items? listed member
          have smaller := sizeOf_lt_of_get? found
          exact constructed_of_ofComponent inner
      · exact constructed_of_ofDocument_of_forall (fun _ listed => by cases listed) read
  | _ =>
      unfold ofComponent at read
      cases read
termination_by sizeOf item
decreasing_by
  subst_vars
  simp only [Value.dict.sizeOf_spec]
  omega

theorem constructed_of_ofDocument (read : ofDocument typeText components = .ok type) :
    type.Constructed :=
  constructed_of_ofDocument_of_forall (fun _ _ item _ => constructed_of_ofComponent item) read

end Documents

end AbiType

theorem ParamEntry.constructed_of_toParam {entry : ParamEntry} {param : Param}
    (read : entry.toParam = .ok param) : param.type.Constructed := by
  rcases entry with ⟨name, text, indexed, components⟩
  rcases Outcome.bind_eq_ok_iff.mp read with ⟨type, readType, made⟩
  cases made
  exact AbiType.constructed_of_ofDocument readType

/-- A parameter is read from an entry that gives its type. -/
theorem ParamEntry.toParam_of_isListedBy {type : AbiType} {components : Option (List ParamEntry)}
    (constructed : type.Constructed) (listed : type.IsListedBy (componentsValue components))
    (name : String) (indexed : Bool) :
    toParam (.mk name (String.ofList type.documentSpelling) indexed components) =
      .ok { name, type, indexed } := by
  rw [toParam, AbiType.ofDocument_of_isListedBy constructed listed]
  rfl

theorem Param.constructed_of_mapM {entries : List ParamEntry} {params : List Param}
    (read : entries.mapM ParamEntry.toParam = .ok params) :
    ∀ type ∈ Param.types params, type.Constructed := by
  intro type member
  rcases List.mem_map.mp member with ⟨param, inside, rfl⟩
  rcases Outcome.exists_of_mem_mapM read inside with ⟨entry, _, readParam⟩
  exact ParamEntry.constructed_of_toParam readParam

end ContractClient
