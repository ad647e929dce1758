import ContractClient.Value

/-!
# Members of objects

What stands under the keys of an object, after some of them were set. Several values that are set
one after the other all remain exactly if their keys are distinct (`Dict.merge_of_nodup`,
`Dict.nodup_of_length_merge`). In any case every key has one value in the end
(`Dict.nodup_keys_merge`, `Dict.mem_keys_merge`).
-/

namespace ContractClient

namespace Dict

variable {entries : Dict} {key other : String} {value : Value}

/-- What an object has under a key, null if there is nothing. -/
def memberOf (entries : Dict) (key : String) : Value :=
  (get? entries key).getD .null

theorem ofOption_get? : Value.ofOption (get? entries key) = memberOf entries key := by
  unfold memberOf
  cases get? entries key <;> rfl

theorem get?_set_self : get? (set entries key value) key = some value := by
  rw [set]
  cases present : entries.any fun entry => entry.1 == key with
  | true =>
      simp only [if_true, get?]
      induction entries with
      | nil => simp at present
      | cons entry entries ih =>
          by_cases same : entry.1 = key
          · simp [same]
          · simpa [same] using ih (by simpa [same] using present)
  | false =>
      have absent : get? entries key = none := by
        simpa [get?, List.any_eq_false] using present
      simp only [Bool.false_eq_true, if_false, get?, List.find?_append] at absent ⊢
      simp [Option.map_eq_none_iff.mp absent]

theorem get?_set_of_ne (different : other ≠ key) :
    get? (set entries key value) other = get? entries other := by
  have noMatch : (key == other) = false := by simpa using different.symm
  rw [set]
  split
  · next present =>
    clear present
    simp only [get?]
    congr 1
    induction entries with
    | nil => rfl
    | cons entry entries ih =>
        rw [List.map_cons, List.find?_cons, List.find?_cons, ih]
        by_cases same : entry.1 = key <;> simp [same, noMatch]
  · simp [get?, List.find?_append, noMatch]

theorem memberOf_setSome {value : Option Value} : memberOf (setSome entries key value) other =
    if other = key then value.getD (memberOf entries key) else memberOf entries other := by
  cases value with
  | none => by_cases same : other = key <;> simp [setSome, same]
  | some value =>
      by_cases same : other = key
      · simp [setSome, same, memberOf, get?_set_self]
      · simp [setSome, same, memberOf, get?_set_of_ne]

/-- Setting a key adds no other one. -/
theorem mem_keys_setSome {value : Option Value} {keys : List String} (known : key ∈ keys)
    (kept : ∀ entry ∈ entries, entry.1 ∈ keys) :
    ∀ entry ∈ setSome entries key value, entry.1 ∈ keys := by
  cases value with
  | none => exact kept
  | some value =>
      intro entry member
      rw [setSome, set] at member
      split at member
      · rcases List.mem_map.mp member with ⟨earlier, before, rfl⟩
        split
        · exact known
        · exact kept earlier before
      · rcases List.mem_append.mp member with before | last
        · exact kept entry before
        · rw [List.mem_singleton.mp last]
          exact known

section Distinct

variable {base overrides : Dict} {entry : String × Value}

theorem any_key_eq_true_iff :
    (entries.any fun entry => entry.1 == key) = true ↔ key ∈ entries.map Prod.fst := by
  simp only [List.any_eq_true, beq_iff_eq, List.mem_map]

theorem set_of_notMem (absent : key ∉ entries.map Prod.fst) :
    set entries key value = entries ++ [(key, value)] := by
  rw [set, if_neg]
  intro present
  exact absent (any_key_eq_true_iff.mp present)

theorem length_set_of_mem (present : key ∈ entries.map Prod.fst) :
    (set entries key value).length = entries.length := by
  rw [set, if_pos (any_key_eq_true_iff.mpr present), List.length_map]

theorem merge_cons : merge base (entry :: overrides) = merge (base.set entry.1 entry.2) overrides :=
  rfl

/-- Values under distinct keys are set one behind the other. -/
theorem merge_of_nodup (distinct : ((base ++ overrides).map Prod.fst).Nodup) :
    merge base overrides = base ++ overrides := by
  induction overrides generalizing base with
  | nil => simp [merge]
  | cons entry overrides ih =>
      have regrouped : base ++ entry :: overrides = (base ++ [entry]) ++ overrides := by simp
      have absent : entry.1 ∉ base.map Prod.fst := by
        intro present
        rw [List.map_append, List.nodup_append] at distinct
        exact distinct.2.2 entry.1 present entry.1 (by simp) rfl
      rw [regrouped] at distinct ⊢
      rw [merge_cons, set_of_notMem absent]
      exact ih distinct

theorem length_merge_le : (merge base overrides).length ≤ base.length + overrides.length := by
  induction overrides generalizing base with
  | nil => exact Nat.le_refl _
  | cons entry overrides ih =>
      have rest := @ih (base.set entry.1 entry.2)
      rw [merge_cons, List.length_cons]
      by_cases present : entry.1 ∈ base.map Prod.fst
      · rw [length_set_of_mem present] at rest
        omega
      · rw [set_of_notMem present, List.length_append, List.length_singleton] at rest
        rw [set_of_notMem present]
        omega

/-- If nothing is lost when values are set, their keys are distinct. -/
theorem nodup_of_length_merge (distinct : (base.map Prod.fst).Nodup)
    (kept : base.length + overrides.length ≤ (merge base overrides).length) :
    ((base ++ overrides).map Prod.fst).Nodup := by
  induction overrides generalizing base with
  | nil => simpa using distinct
  | cons entry overrides ih =>
      rw [merge_cons, List.length_cons] at kept
      by_cases present : entry.1 ∈ base.map Prod.fst
      · have lost := @length_merge_le (base.set entry.1 entry.2) overrides
        rw [length_set_of_mem present] at lost
        omega
      · rw [set_of_notMem present] at kept
        have distinctFirst : ((base ++ [entry]).map Prod.fst).Nodup := by
          rw [List.map_append, List.nodup_append]
          refine ⟨distinct, by simp, ?_⟩
          intro key before other last same
          rw [List.map_singleton, List.mem_singleton] at last
          exact present (last ▸ same ▸ before)
        have all := ih distinctFirst (by simpa [Nat.add_comm, Nat.add_left_comm] using kept)
        simpa using all

/-- Under distinct keys every value is found. -/
theorem get?_of_mem (distinct : (entries.map Prod.fst).Nodup) (member : entry ∈ entries) :
    get? entries entry.1 = some entry.2 := by
  induction entries with
  | nil => cases member
  | cons first entries ih =>
      rw [List.map_cons, List.nodup_cons] at distinct
      rcases List.mem_cons.mp member with rfl | member
      · simp [get?]
      · have different : first.1 ≠ entry.1 := by
          intro same
          apply distinct.1
          rw [same]
          exact List.mem_map_of_mem member
        have rest := ih distinct.2 member
        rw [get?] at rest ⊢
        rwa [List.find?_cons_of_neg (by simpa using different)]

/-- After a key is set, it stands for its value, and everything under other keys is unchanged. -/
theorem mem_set_iff :
    entry ∈ set entries key value ↔ entry = (key, value) ∨ entry ∈ entries ∧ entry.1 ≠ key := by
  by_cases present : key ∈ entries.map Prod.fst
  · rw [set, if_pos (any_key_eq_true_iff.mpr present), List.mem_map]
    constructor
    · rintro ⟨earlier, before, rfl⟩
      by_cases same : earlier.1 = key
      · simp [same]
      · simpa [same] using Or.inr before
    · rintro (rfl | ⟨before, different⟩)
      · rcases List.mem_map.mp present with ⟨earlier, before, same⟩
        exact ⟨earlier, before, by simp [same]⟩
      · exact ⟨entry, before, by simp [different]⟩
  · rw [set_of_notMem present, List.mem_append, List.mem_singleton, or_comm]
    refine or_congr_right (iff_self_and.mpr ?_)
    rintro before rfl
    exact present (List.mem_map_of_mem before)

theorem nodup_keys_set (distinct : (entries.map Prod.fst).Nodup) :
    ((set entries key value).map Prod.fst).Nodup := by
  by_cases present : key ∈ entries.map Prod.fst
  · have sameKeys : (set entries key value).map Prod.fst = entries.map Prod.fst := by
      rw [set, if_pos (any_key_eq_true_iff.mpr present), List.map_map]
      refine List.map_congr_left fun earlier _ => ?_
      by_cases same : earlier.1 = key <;> simp [same]
    rwa [sameKeys]
  · rw [set_of_notMem present, List.map_append, List.map_singleton, List.nodup_append]
    refine ⟨distinct, by simp, ?_⟩
    intro earlier before other last same
    rw [same, List.mem_singleton.mp last] at before
    exact present before

theorem nodup_keys_merge (distinct : (base.map Prod.fst).Nodup) :
    ((merge base overrides).map Prod.fst).Nodup := by
  induction overrides generalizing base with
  | nil => exact distinct
  | cons entry overrides ih => exact ih (nodup_keys_set distinct)

theorem mem_of_mem_merge (member : entry ∈ merge base overrides) :
    entry ∈ base ∨ entry ∈ overrides := by
  induction overrides generalizing base with
  | nil => exact .inl member
  | cons first overrides ih =>
      rcases ih member with before | later
      · rcases mem_set_iff.mp before with rfl | ⟨earlier, _⟩
        · exact .inr List.mem_cons_self
        · exact .inl earlier
      · exact .inr (List.mem_cons_of_mem first later)

/-- Every key has a value in the end. -/
theorem mem_keys_merge (member : key ∈ base.map Prod.fst ∨ key ∈ overrides.map Prod.fst) :
    key ∈ (merge base overrides).map Prod.fst := by
  induction overrides generalizing base with
  | nil =>
      rcases member with before | none
      · exact before
      · cases none
  | cons first overrides ih =>
      refine ih ?_
      have firstSet : first.1 ∈ (set base first.1 first.2).map Prod.fst :=
        List.mem_map_of_mem (mem_set_iff.mpr (.inl rfl))
      rw [List.map_cons, List.mem_cons] at member
      rcases member with before | rfl | later
      · left
        by_cases same : key = first.1
        · rwa [same]
        · rcases List.mem_map.mp before with ⟨entry, inBase, rfl⟩
          exact List.mem_map_of_mem (mem_set_iff.mpr (.inr ⟨inBase, same⟩))
      · exact .inl firstSet
      · exact .inr later

end Distinct

end Dict

end ContractClient
