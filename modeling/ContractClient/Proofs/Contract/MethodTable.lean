import ContractClient.Contract.Instance
import ContractClient.Proofs.Abi.Lookup
import ContractClient.Proofs.Dict
import Mathlib.Data.List.Dedup
import Mathlib.Data.List.Nodup

/-!
# The method table

The table of a contract gives every function a name: its alias, if it has one, and else its own
name. A table can be used (`ContractInstance.HasUsableTable`) if no function is missing and each of
them is found by the name that the table gives it. That is so exactly if every function is aliased
or goes by its own name, which no other function and no alias has
(`ContractInstance.hasUsableTable_iff`).
-/

namespace ContractClient.ContractInstance

variable {contract : ContractInstance} {function other : ContractFunction}

section Aliases

variable {aliases read : List (String × ContractFunction)} {name : String}

theorem keys_setAlias : (setAlias aliases name function).map Prod.fst =
    if name ∈ aliases.map Prod.fst then aliases.map Prod.fst
    else aliases.map Prod.fst ++ [name] := by
  induction aliases with
  | nil => simp [setAlias]
  | cons entry aliases ih =>
      rcases entry with ⟨key, found⟩
      rw [setAlias]
      by_cases same : key = name
      · simp [same]
      · rw [if_neg same, List.map_cons, ih]
        by_cases present : name ∈ aliases.map Prod.fst <;> simp [present, Ne.symm same]

theorem nodup_setAlias (distinct : (aliases.map Prod.fst).Nodup) :
    ((setAlias aliases name function).map Prod.fst).Nodup := by
  rw [keys_setAlias]
  split
  · exact distinct
  · next absent =>
      rw [← List.concat_eq_append]
      exact distinct.concat absent

/-- No alias stands for two functions. -/
theorem nodup_readAliases {abi : ContractAbi} {entries : List (String × String)}
    (distinct : (aliases.map Prod.fst).Nodup)
    (accepted : readAliases abi aliases entries = .ok read) : (read.map Prod.fst).Nodup := by
  induction entries generalizing aliases with
  | nil =>
      cases accepted
      exact distinct
  | cons entry entries ih =>
      rw [readAliases] at accepted
      split at accepted
      · exact ih (nodup_setAlias distinct) accepted
      · cases accepted

end Aliases

/-- Some alias stands for a function. -/
def IsAliased (contract : ContractInstance) (function : ContractFunction) : Prop :=
  ∃ entry ∈ contract.aliases, entry.2.canonical = function.canonical

/-- A function goes by its own name: it is the only one that is declared with the name, no alias has
the name, and the name is not taken for a signature. -/
structure GoesByName (contract : ContractInstance) (function : ContractFunction) : Prop where
  plain : '(' ∉ function.name.toList
  alone : (contract.abi.functions.filter fun other => other.name == function.name) = [function]
  free : ∀ entry ∈ contract.aliases, entry.1 ≠ function.name

theorem nameOf_of_isAliased (aliased : contract.IsAliased function) :
    ∃ entry ∈ contract.aliases, entry.1 = contract.nameOf function ∧
      entry.2.canonical = function.canonical := by
  rw [nameOf]
  split
  · next name found listed =>
      refine ⟨_, List.mem_reverse.mp (List.mem_of_find?_eq_some listed), rfl, ?_⟩
      have same := List.find?_some listed
      simpa using same
  · next absent =>
      rw [List.find?_eq_none] at absent
      rcases aliased with ⟨entry, member, same⟩
      exact absurd (beq_iff_eq.mpr same) (absent entry (List.mem_reverse.mpr member))

theorem nameOf_of_not_isAliased (unaliased : ¬contract.IsAliased function) :
    contract.nameOf function = function.name := by
  rw [nameOf]
  split
  · next name found listed =>
      have same := List.find?_some listed
      simp only [beq_iff_eq] at same
      exact absurd ⟨_, List.mem_reverse.mp (List.mem_of_find?_eq_some listed), same⟩ unaliased
  · rfl

/-- Functions with one signature have one name. -/
theorem nameOf_congr (same : function.canonical = other.canonical) :
    contract.nameOf function = contract.nameOf other := by
  rw [nameOf, nameOf, same, name_eq_of_canonicalSignature_eq same]

theorem function_of_alias (distinct : (contract.aliases.map Prod.fst).Nodup)
    {entry : String × ContractFunction} (member : entry ∈ contract.aliases) :
    contract.function entry.1 = .ok entry.2 := by
  rw [ContractInstance.function]
  split
  · next found listed =>
      rcases List.lookup_eq_some_iff.mp listed with ⟨before, after, split, _⟩
      have present : (entry.1, found) ∈ contract.aliases := by simp [split]
      have same := List.inj_on_of_nodup_map distinct present member rfl
      rw [← same]
  · next absent =>
      rw [List.lookup_eq_none_iff] at absent
      simpa using absent entry member

theorem function_of_free {name : String} (free : ∀ entry ∈ contract.aliases, entry.1 ≠ name) :
    contract.function name = contract.abi.function name := by
  have absent : contract.aliases.lookup name = none := by
    rw [List.lookup_eq_none_iff]
    intro entry member
    simpa using (free entry member).symm
  rw [ContractInstance.function, absent]

/-- What the table has to say of a function. -/
def tableEntry (contract : ContractInstance) (function : ContractFunction) : String × Value :=
  (contract.nameOf function, .text function.canonical)

theorem signatures_eq_merge :
    contract.signatures = Dict.merge [] (contract.abi.functions.map contract.tableEntry) := by
  rw [signatures, Dict.merge, List.foldl_map]
  rfl

theorem nodup_keys_signatures : (contract.signatures.map Prod.fst).Nodup := by
  rw [signatures_eq_merge]
  exact Dict.nodup_keys_merge List.nodup_nil

theorem exists_function_of_mem_signatures {entry : String × Value}
    (member : entry ∈ contract.signatures) :
    ∃ function ∈ contract.abi.functions, contract.tableEntry function = entry := by
  rw [signatures_eq_merge] at member
  rcases Dict.mem_of_mem_merge member with none | listed
  · cases none
  · exact List.mem_map.mp listed

/-- The table has an entry under the name of every function. -/
theorem exists_mem_signatures (member : function ∈ contract.abi.functions) :
    ∃ other ∈ contract.abi.functions, contract.nameOf other = contract.nameOf function ∧
      contract.tableEntry other ∈ contract.signatures := by
  have key : contract.nameOf function ∈ contract.signatures.map Prod.fst := by
    rw [signatures_eq_merge]
    refine Dict.mem_keys_merge (.inr ?_)
    rw [List.map_map]
    exact List.mem_map_of_mem member
  rcases List.mem_map.mp key with ⟨entry, listed, same⟩
  rcases exists_function_of_mem_signatures listed with ⟨other, declared, rfl⟩
  exact ⟨other, declared, same, listed⟩

/-- The table has no signature twice. -/
theorem nodup_signatures : (contract.signatures.map Prod.snd).Nodup := by
  -- All functions with one signature have one name, and a name has one entry.
  refine List.Nodup.map_on ?_ (List.Nodup.of_map _ nodup_keys_signatures)
  intro first firstListed second secondListed same
  rcases exists_function_of_mem_signatures firstListed with ⟨function, _, rfl⟩
  rcases exists_function_of_mem_signatures secondListed with ⟨other, _, rfl⟩
  have sameSignature : function.canonical = other.canonical := Value.text.inj same
  rw [tableEntry, tableEntry, nameOf_congr sameSignature, sameSignature]

/-- The table has one entry for every signature of the interface, and the name in the entry stands
for a function with the signature. -/
structure HasUsableTable (contract : ContractInstance) : Prop where
  onePerSignature : (contract.signatures.map Prod.snd).Perm
    (contract.abi.signatures.dedup.map .text)
  found : ∀ name signature, (name, .text signature) ∈ contract.signatures →
    ∃ function, contract.function name = .ok function ∧ function.canonical = signature

/-- The name that the table gives a function stands for its signature. -/
def FindsByTable (contract : ContractInstance) (function : ContractFunction) : Prop :=
  ∃ found, contract.function (contract.nameOf function) = .ok found ∧
    found.canonical = function.canonical

theorem FindsByTable.canonical_eq (finds : contract.FindsByTable function)
    (findsOther : contract.FindsByTable other)
    (same : contract.nameOf function = contract.nameOf other) :
    function.canonical = other.canonical := by
  rcases finds with ⟨found, resolved, signature⟩
  rcases findsOther with ⟨foundOther, resolvedOther, signatureOther⟩
  rw [same, resolvedOther] at resolved
  cases resolved
  exact signature.symm.trans signatureOther

section Finding

variable (finds : ∀ function ∈ contract.abi.functions, contract.FindsByTable function)

include finds

theorem mem_signatures_iff_of_finds {entry : String × Value} :
    entry ∈ contract.signatures ↔
      ∃ function ∈ contract.abi.functions, contract.tableEntry function = entry := by
  refine ⟨exists_function_of_mem_signatures, ?_⟩
  rintro ⟨function, member, rfl⟩
  rcases exists_mem_signatures member with ⟨other, declared, sameName, listed⟩
  have sameSignature := (finds other declared).canonical_eq (finds function member) sameName
  have sameEntry : contract.tableEntry other = contract.tableEntry function := by
    rw [tableEntry, tableEntry, sameName, sameSignature]
  rwa [← sameEntry]

theorem hasUsableTable_of_finds : contract.HasUsableTable where
  onePerSignature := by
    have distinctTexts : (contract.abi.signatures.dedup.map Value.text).Nodup :=
      (List.nodup_dedup _).map fun _ _ => Value.text.inj
    rw [List.perm_ext_iff_of_nodup nodup_signatures distinctTexts]
    intro value
    simp only [List.mem_map, mem_signatures_iff_of_finds finds, List.mem_dedup,
      ContractAbi.signatures, exists_exists_and_eq_and]
    rfl
  found name signature listed := by
    rcases exists_function_of_mem_signatures listed with ⟨function, declared, same⟩
    cases same
    exact finds function declared

end Finding

/-- A table can be used exactly if the lookup finds every function by the name in the table. -/
theorem hasUsableTable_iff_finds :
    contract.HasUsableTable ↔
      ∀ function ∈ contract.abi.functions, contract.FindsByTable function := by
  refine ⟨fun usable function member => ?_, hasUsableTable_of_finds⟩
  have listed : Value.text function.canonical ∈ contract.signatures.map Prod.snd := by
    rw [usable.onePerSignature.mem_iff]
    refine List.mem_map_of_mem (List.mem_dedup.mpr ?_)
    exact List.mem_map_of_mem member
  rcases List.mem_map.mp listed with ⟨entry, inTable, text⟩
  rcases exists_function_of_mem_signatures inTable with ⟨other, _, rfl⟩
  have same : other.canonical = function.canonical := Value.text.inj text
  rw [FindsByTable, ← nameOf_congr same, ← same]
  exact usable.found _ _ inTable

section Apart

variable {entries : List AbiEntry} {functions : List ContractFunction}
  {events : List ContractEvent} {errors : List ContractError}

theorem finds_of_isAliased (distinct : (contract.aliases.map Prod.fst).Nodup)
    (aliased : contract.IsAliased function) : contract.FindsByTable function := by
  rcases nameOf_of_isAliased aliased with ⟨entry, listed, name, same⟩
  rw [FindsByTable, ← name, function_of_alias distinct listed]
  exact ⟨entry.2, rfl, same⟩

/-- A signature is longer than the name in it, so no name is taken for the signature of the
function that it belongs to. -/
theorem function_name_ne_ok {abi : ContractAbi} {found : ContractFunction}
    (signature : '(' ∈ function.name.toList) (same : found.canonical = function.canonical) :
    abi.function function.name ≠ .ok found := by
  intro resolved
  rcases Declarations.mem_named_of_resolve_signature signature resolved with ⟨_, filtered⟩
  have shorter := List.length_filter_le (· != ' ') function.name.toList
  rw [← filtered, same, ContractFunction.canonical, toList_canonicalSignature] at shorter
  rw [List.length_append, List.length_cons] at shorter
  omega

/-- Where a function has no alias, it is found exactly if it goes by its own name. -/
theorem finds_iff_goesByName
    (declares : contract.abi.Declares entries functions events errors)
    (distinct : (contract.aliases.map Prod.fst).Nodup) (member : function ∈ contract.abi.functions)
    (unaliased : ¬contract.IsAliased function) :
    contract.FindsByTable function ↔ contract.GoesByName function := by
  rw [FindsByTable, nameOf_of_not_isAliased unaliased]
  constructor
  · rintro ⟨found, resolved, same⟩
    -- An alias with the name would be found first, so it would stand for the function.
    have free : ∀ entry ∈ contract.aliases, entry.1 ≠ function.name := by
      intro entry listed sameName
      rw [← sameName, function_of_alias distinct listed] at resolved
      cases resolved
      exact unaliased ⟨entry, listed, same⟩
    rw [function_of_free free] at resolved
    have plain : '(' ∉ function.name.toList := fun signature =>
      function_name_ne_ok signature same resolved
    have alone := (declares.function_eq_ok_iff plain).mp resolved
    have sameFunction : function = found := by
      rw [← List.mem_singleton, ← alone]
      simpa using member
    exact ⟨plain, sameFunction ▸ alone, free⟩
  · intro own
    rw [function_of_free own.free]
    exact ⟨function, (declares.function_eq_ok_iff own.plain).mpr own.alone, rfl⟩

end Apart

section Created

variable {entries : List AbiEntry} {abi : ContractAbi} {address : Value} {transport : Transport}
  {signer : Option Signer} {config : PipelineConfig} {aliases : List (String × String)}

theorem create_eq_ok (created : create abi address transport signer config aliases = .ok contract) :
    contract.abi = abi ∧ (contract.aliases.map Prod.fst).Nodup := by
  rcases Outcome.bind_eq_ok_iff.mp created with ⟨_, _, created⟩
  rcases Outcome.bind_eq_ok_iff.mp created with ⟨read, accepted, made⟩
  cases made
  have noneTwice : (([] : List (String × ContractFunction)).map Prod.fst).Nodup := List.nodup_nil
  exact ⟨rfl, nodup_readAliases noneTwice accepted⟩

/-- Whatever interface and aliases a contract has, its method table can be used exactly if every
function is aliased or goes by its own name. -/
theorem hasUsableTable_iff (loaded : ContractAbi.ofEntries entries = .ok abi)
    (created : create abi address transport signer config aliases = .ok contract) :
    contract.HasUsableTable ↔ ∀ function ∈ abi.functions,
      contract.IsAliased function ∨ contract.GoesByName function := by
  rcases create_eq_ok created with ⟨rfl, distinct⟩
  rcases ContractAbi.declares_of_ofEntries loaded with ⟨functions, events, errors, declares⟩
  rw [hasUsableTable_iff_finds]
  refine forall₂_congr fun function member => ?_
  by_cases aliased : contract.IsAliased function
  · exact iff_of_true (finds_of_isAliased distinct aliased) (.inl aliased)
  · rw [finds_iff_goesByName declares distinct member aliased]
    exact (or_iff_right aliased).symm

end Created

section Examples

open ContractAbi

def account : Value :=
  .bytes (List.replicate 20 0xaa)

/-- Two functions of one name, with an alias for each. -/
theorem hasUsableTable_aliases :
    ∃ abi contract, ofEntries storeEntries = .ok abi ∧
      create abi account .direct none {}
        [("put(uint256)", "putNumber"), ("put(bytes)", "putBytes")] = .ok contract ∧
      contract.HasUsableTable ∧
      contract.signatures = [("putNumber", .text "put(uint256)"),
        ("putBytes", .text "put(bytes)"), ("get", .text "get()")] := by
  obtain ⟨contract, created⟩ : ∃ contract, create storeAbi account .direct none {}
      [("put(uint256)", "putNumber"), ("put(bytes)", "putBytes")] = .ok contract := ⟨_, rfl⟩
  refine ⟨storeAbi, contract, ofEntries_store, created, ?_, ?_⟩
  · refine (hasUsableTable_iff ofEntries_store created).mpr ?_
    cases created
    intro function member
    rcases List.mem_cons.mp member with rfl | member
    · exact .inl ⟨("putNumber", put (.uint 256)), List.mem_cons_self, rfl⟩
    rcases List.mem_cons.mp member with rfl | member
    · exact .inl ⟨("putBytes", put .bytes), List.mem_cons_of_mem _ List.mem_cons_self, rfl⟩
    cases List.mem_singleton.mp member
    exact .inr ⟨by decide, rfl, by simp [setAlias]⟩
  · cases created
    rfl

/-- A contract may be created whose table loses a function under the alias of another one. -/
theorem not_every_table_usable :
    ¬∀ (entries : List AbiEntry) (abi : ContractAbi) (address : Value) (transport : Transport)
        (aliases : List (String × String)) (contract : ContractInstance),
      ofEntries entries = .ok abi →
        create abi address transport none {} aliases = .ok contract →
          contract.HasUsableTable := by
  intro usable
  let pause : ContractFunction := { name := "pause" }
  let resume : ContractFunction := { name := "resume" }
  let entries : List AbiEntry := [.plain "function" "pause" [], .plain "function" "resume" []]
  have finds := hasUsableTable_iff_finds.mp
    (usable entries _ account .direct [("pause()", "resume")] _ rfl rfl)
  rcases finds resume (List.mem_cons_of_mem pause List.mem_cons_self) with ⟨found, resolved, same⟩
  cases resolved
  exact absurd same (by decide)

end Examples

end ContractClient.ContractInstance
