import ContractClient.Proofs.Abi.Lookup

/-!
# The order of declarations

A table by name lists declarations with those of one name together, at the place of the first of
them. So it lists them in the order of the document exactly if no name comes back after another one
(`Declarations.all_ofList_eq_iff`), and the same holds of the signatures of an interface
(`ContractAbi.signatures_inOrder_iff`). Each is listed as often as it is declared in any case, and
those of one name stay in their order.
-/

namespace ContractClient

/-- No name comes back after another one. -/
def StandTogether (names : List String) : Prop :=
  ∀ name other, [name, other, name].Sublist names → other = name

theorem StandTogether.of_sublist {names others : List String} (together : StandTogether others)
    (sublist : names.Sublist others) : StandTogether names := by
  intro name other inside
  exact together name other (inside.trans sublist)

namespace Declarations

variable {α : Type} {nameOf : α → String} {table : Declarations α} {items group : List α}
  {name : String} {item : α}

/-- Every name of a table has a group of its own, which holds declarations with the name only, and
at least one. -/
inductive IsGrouped (nameOf : α → String) : Declarations α → Prop where
  | nil : IsGrouped nameOf []
  | cons {name : String} {group : List α} {rest : Declarations α} (nonempty : group ≠ [])
      (named : ∀ item ∈ group, nameOf item = name) (apart : ∀ item ∈ rest.all, nameOf item ≠ name)
      (grouped : IsGrouped nameOf rest) : IsGrouped nameOf ((name, group) :: rest)

theorem all_cons {rest : Declarations α} : all ((name, group) :: rest) = group ++ all rest := by
  simp [all]

theorem IsGrouped.insert (grouped : IsGrouped nameOf table) :
    IsGrouped nameOf (table.insert (nameOf item) item) := by
  induction grouped with
  | nil => exact .cons (by simp) (by simp) (by simp [all]) .nil
  | @cons name group rest nonempty named apart grouped ih =>
      rw [Declarations.insert]
      split
      · next same =>
          refine .cons (by simp) ?_ apart grouped
          intro other member
          rcases List.mem_append.mp member with inside | last
          · exact named other inside
          · rw [List.mem_singleton.mp last, same]
      · next different =>
          refine .cons nonempty named ?_ ih
          intro other member
          rcases mem_all_insert.mp member with inside | rfl
          · exact apart other inside
          · exact Ne.symm different

theorem isGrouped_ofList : IsGrouped nameOf (ofList nameOf items) := by
  induction items using List.reverseRecOn with
  | nil => exact .nil
  | append_singleton items item ih =>
      rw [ofList_concat]
      exact ih.insert

/-- In a table the declarations of one name stand together. -/
theorem IsGrouped.standTogether (grouped : IsGrouped nameOf table) :
    StandTogether (table.all.map nameOf) := by
  induction grouped with
  | nil =>
      intro name other sublist
      simp [all] at sublist
  | @cons name group rest nonempty named apart grouped ih =>
      intro key other sublist
      rw [all_cons, List.map_append, List.sublist_append_iff] at sublist
      rcases sublist with ⟨before, after, split, inGroup, inRest⟩
      have ofGroup : ∀ known ∈ before, known = name := by
        intro known member
        rcases List.mem_map.mp (inGroup.subset member) with ⟨item, inside, rfl⟩
        exact named item inside
      have ofRest : ∀ known ∈ after, known ≠ name := by
        intro known member
        rcases List.mem_map.mp (inRest.subset member) with ⟨item, inside, rfl⟩
        exact apart item inside
      -- The name stands on both sides of the other one, so all three come from one side.
      rcases before with _ | ⟨first, _ | ⟨second, before⟩⟩
      · subst split
        exact ih key other inRest
      · cases split
        exact absurd (ofGroup key (by simp)) (ofRest key (by simp))
      · simp only [List.cons_append, List.cons.injEq] at split
        rcases split with ⟨rfl, rfl, _⟩
        exact (ofGroup other (by simp)).trans (ofGroup key (by simp)).symm

/-- A declaration whose name stands together with the others of its name is listed last. -/
theorem IsGrouped.all_insert (grouped : IsGrouped nameOf table)
    (together : StandTogether ((table.all ++ [item]).map nameOf)) :
    (table.insert (nameOf item) item).all = table.all ++ [item] := by
  induction grouped with
  | nil => rfl
  | @cons name group rest nonempty named apart grouped ih =>
      rw [all_cons, List.append_assoc] at together ⊢
      rw [Declarations.insert]
      split
      · next same =>
          rw [all_cons, List.append_assoc]
          cases others : all rest with
          | nil => rfl
          | cons other more =>
              rcases List.exists_mem_of_ne_nil group nonempty with ⟨first, inGroup⟩
              have between : [name, nameOf other, name].Sublist
                  ((group ++ (rest.all ++ [item])).map nameOf) := by
                have sublist : [first, other, item].Sublist (group ++ (rest.all ++ [item])) := by
                  have inRest : other ∈ rest.all := by simp [others]
                  apply (List.singleton_sublist.mpr inGroup).append
                  exact (List.singleton_sublist.mpr inRest).append (List.Sublist.refl [item])
                simpa [named first inGroup, same] using sublist.map nameOf
              exact absurd (together name _ between) (apart other (by simp [others]))
      · next different =>
          rw [all_cons, ih (together.of_sublist ?_)]
          exact (List.sublist_append_right _ _).map nameOf

theorem all_ofList_eq_iff :
    (ofList nameOf items).all = items ↔ StandTogether (items.map nameOf) := by
  constructor
  · intro same
    rw [← same]
    exact isGrouped_ofList.standTogether
  · intro together
    induction items using List.reverseRecOn with
    | nil => rfl
    | append_singleton items item ih =>
        have before := ih (together.of_sublist (by simp))
        rw [ofList_concat, isGrouped_ofList.all_insert (by rwa [before]), before]

/-- What has one name is listed in the order in which it is declared. -/
theorem IsGrouped.filter_all (grouped : IsGrouped nameOf table) :
    (table.all.filter fun item => nameOf item == name) = table.named name := by
  induction grouped with
  | nil => rfl
  | @cons key group rest nonempty named apart grouped ih =>
      rw [all_cons, List.filter_append]
      by_cases same : key = name
      · subst same
        have all : (group.filter fun item => nameOf item == key) = group := by
          simpa using named
        have none : (rest.all.filter fun item => nameOf item == key) = [] := by
          simpa using apart
        simp [all, none, Declarations.named]
      · have none : (group.filter fun item => nameOf item == name) = [] := by
          simp only [List.filter_eq_nil_iff, beq_iff_eq]
          intro item member
          rwa [named item member]
        rw [none, ih, List.nil_append]
        simp [Declarations.named, same]

end Declarations

namespace ContractAbi

variable {abi : ContractAbi} {document : Value}

/-- Functions with the same canonical signatures have the same names. -/
theorem map_name_eq_of_map_canonical_eq {first second : List ContractFunction}
    (same : first.map ContractFunction.canonical = second.map ContractFunction.canonical) :
    first.map ContractFunction.name = second.map ContractFunction.name := by
  rw [← List.forall₂_eq_eq_eq, List.forall₂_map_left_iff, List.forall₂_map_right_iff] at same ⊢
  apply same.imp
  intro _ _
  exact name_eq_of_canonicalSignature_eq

/-- The signatures of an interface are those of all its functions, each as often as it is declared.
They stand in the order of the document exactly if the functions of one name stand together there;
the functions of one name are in their order in any case. -/
theorem signatures_inOrder_iff (loaded : ofDocument document = .ok abi) :
    ∃ entries functions, AbiEntry.ofDocument document = .ok entries ∧
      AbiEntry.declared "function" AbiEntry.toFunction entries = .ok functions ∧
      abi.signatures.Perm (functions.map ContractFunction.canonical) ∧
      (∀ name, (abi.functions.filter fun function => function.name == name) =
        functions.filter fun function => function.name == name) ∧
      (abi.signatures = functions.map ContractFunction.canonical ↔
        StandTogether (functions.map ContractFunction.name)) := by
  rcases Outcome.bind_eq_ok_iff.mp loaded with ⟨entries, read, loadedEntries⟩
  rcases declares_of_ofEntries loadedEntries with ⟨functions, events, errors, declares⟩
  have listed : abi.functions = (Declarations.ofList ContractFunction.name functions).all := by
    rw [ContractAbi.functions, declares.functionsByName]
  refine ⟨entries, functions, read, declares.declaredFunctions, declares.perm_functions.map _, ?_,
    ?_, ?_⟩
  · intro name
    rw [listed, Declarations.isGrouped_ofList.filter_all, Declarations.named_ofList]
  · intro inOrder
    have names := map_name_eq_of_map_canonical_eq inOrder
    rw [← names, listed]
    exact Declarations.isGrouped_ofList.standTogether
  · intro together
    rw [signatures, listed, Declarations.all_ofList_eq_iff.mpr together]

/-- A document in which the functions of one name stand together. -/
def tidyDocument : Value :=
  .list [
    .dict [("name", .text "put"), ("inputs", .list [.dict [("type", .text "uint256")]])],
    .dict [("name", .text "put"), ("inputs", .list [.dict [("type", .text "bytes")]])],
    .dict [("type", .text "function"), ("name", .text "get")]]

def tidyEntries : List AbiEntry :=
  [putEntry "uint256", putEntry "bytes", .plain "function" "get" []]

theorem declared_tidy : AbiEntry.declared "function" AbiEntry.toFunction tidyEntries =
    .ok [put (.uint 256), put .bytes, { name := "get" }] :=
  Outcome.mapM_eq_ok_iff.mpr
    (.cons toFunction_putEntry_uint256 (.cons toFunction_putEntry_bytes (.cons rfl .nil)))

theorem ofDocument_tidy : ∃ abi, ofDocument tidyDocument = .ok abi := by
  have read : AbiEntry.ofDocument tidyDocument = .ok tidyEntries := rfl
  rw [ofDocument, read, Outcome.ok_bind, ofEntries, tidyEntries, List.foldlM_cons,
    add_function rfl toFunction_putEntry_uint256, Outcome.ok_bind, List.foldlM_cons,
    add_function rfl toFunction_putEntry_bytes]
  exact ⟨_, rfl⟩

theorem signatures_inOrder_tidy :
    ∃ abi, ofDocument tidyDocument = .ok abi ∧
      abi.signatures = ["put(uint256)", "put(bytes)", "get()"] := by
  rcases ofDocument_tidy with ⟨abi, loaded⟩
  rcases signatures_inOrder_iff loaded with ⟨entries, functions, read, declared, _, _, inOrder⟩
  have sameEntries : tidyEntries = entries := Except.ok.inj read
  subst sameEntries
  have sameFunctions := Except.ok.inj (declared.symm.trans declared_tidy)
  subst sameFunctions
  refine ⟨abi, loaded, inOrder.mpr ?_⟩
  exact Declarations.all_ofList_eq_iff.mp rfl

/-- The functions of the store are not listed in the order in which they are declared. -/
theorem signatures_outOfOrder_store :
    ∃ abi functions, ofDocument storeDocument = .ok abi ∧
      AbiEntry.ofDocument storeDocument = .ok storeEntries ∧
      AbiEntry.declared "function" AbiEntry.toFunction storeEntries = .ok functions ∧
      functions.map ContractFunction.canonical = ["put(uint256)", "get()", "put(bytes)"] ∧
      abi.signatures = ["put(uint256)", "put(bytes)", "get()"] :=
  ⟨storeAbi, _, ofDocument_store, rfl, declared_store, rfl, rfl⟩

end ContractAbi

end ContractClient
