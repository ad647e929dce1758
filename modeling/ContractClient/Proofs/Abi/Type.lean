import ContractClient.Abi.Decoding
import ContractClient.Proofs.Outcome

/-!
# The structure of types

Types are built from their parts by functions that refuse those that do not exist.
`AbiType.Constructed` holds of the types that can be built in this way, and
`AbiType.Constructed.wellFormed` says that all of them are well-formed. `AbiType.induction` is the
induction over the components of a type.

Every well-formed type but the empty tuple has a width: a static value occupies at least one word
(`AbiType.wordLength_le_staticSize`), and the words that are counted for a member of a block are not
more than its head occupies (`AbiType.headWords_le`).
-/

namespace ContractClient

namespace AbiType

/-- Induction over the components of types. -/
@[elab_as_elim, induction_eliminator]
theorem induction {motive : AbiType → Prop}
    (uint : ∀ bits, motive (.uint bits)) (int : ∀ bits, motive (.int bits))
    (address : motive .address) (bool : motive .bool)
    (fixedBytes : ∀ size, motive (.fixedBytes size))
    (bytes : motive .bytes) (string : motive .string)
    (fixedArray : ∀ item length, motive item → motive (.fixedArray item length))
    (array : ∀ item, motive item → motive (.array item))
    (tuple : ∀ components, (∀ component ∈ components, motive component) →
      motive (.tuple components))
    (type : AbiType) : motive type :=
  @AbiType.rec motive (fun components => ∀ component ∈ components, motive component)
    uint int address bool fixedBytes bytes string fixedArray array tuple
    (fun _ absent => nomatch absent)
    (fun _ _ head tail => List.forall_mem_cons.mpr ⟨head, tail⟩)
    type

/-- The types that can be built from their parts. -/
inductive Constructed : AbiType → Prop where
  | uint (bits : Value) {type : AbiType} (built : uintOf bits = .ok type) : Constructed type
  | int (bits : Value) {type : AbiType} (built : intOf bits = .ok type) : Constructed type
  | address : Constructed .address
  | bool : Constructed .bool
  | fixedBytes (size : Value) {type : AbiType} (built : fixedBytesOf size = .ok type) :
      Constructed type
  | bytes : Constructed .bytes
  | string : Constructed .string
  | fixedArray (length : Value) {item type : AbiType} (inner : Constructed item)
      (built : fixedArrayOf item length = .ok type) : Constructed type
  | array {item type : AbiType} (inner : Constructed item) (built : arrayOf item = .ok type) :
      Constructed type
  | tuple {components : List AbiType} {type : AbiType}
      (inner : ∀ component ∈ components, Constructed component)
      (built : tupleOf components = .ok type) : Constructed type

theorem allWellFormed_iff {types : List AbiType} :
    AllWellFormed types ↔ ∀ type ∈ types, type.isEmptyTuple = false ∧ type.WellFormed := by
  induction types with
  | nil => simp [AllWellFormed]
  | cons type types ih => simp [AllWellFormed, ih, and_assoc]

theorem allWellFormed_replicate {item : AbiType} {count : Nat}
    (nonempty : item.isEmptyTuple = false) (wellFormed : item.WellFormed) :
    AllWellFormed (List.replicate count item) := by
  rw [allWellFormed_iff]
  intro type member
  rw [List.eq_of_mem_replicate member]
  exact ⟨nonempty, wellFormed⟩

/-- A type that is refused is not built, whether or not its text can be shown. -/
theorem refusal_ne_ok {α : Type} (value : Value) (source : String → String) (reason : String)
    (result : α) :
    (do let text ← value.displayed; malformed (source text) reason : Outcome α) ≠ .ok result := by
  intro built
  rcases Outcome.bind_eq_ok_iff.mp built with ⟨_, _, refused⟩
  simp [malformed, Outcome.fault] at refused

theorem isWidth_of_widthOf {name : String} {bits : Value} {width : Nat}
    (built : widthOf name bits = .ok width) : IsWidth width := by
  cases bits with
  | int number =>
      by_cases found : IsWidth number.toNat
      · simp only [widthOf, found, if_true, Outcome.pure_eq_ok, Except.ok.injEq] at built
        rwa [built] at found
      · simp only [widthOf, found, if_false] at built
        exact absurd built (refusal_ne_ok _ _ _ _)
  | _ =>
      simp only [widthOf] at built
      exact absurd built (refusal_ne_ok _ _ _ _)

theorem wellFormed_of_fixedBytesOf {size : Value} {type : AbiType}
    (built : fixedBytesOf size = .ok type) : type.WellFormed := by
  cases size with
  | int number =>
      by_cases found : 1 ≤ number ∧ number ≤ Bytes.wordLength
      · simp only [fixedBytesOf, found, and_self, if_true, Outcome.pure_eq_ok,
          Except.ok.injEq] at built
        subst built
        simp only [WellFormed]
        omega
      · simp only [fixedBytesOf, found, if_false] at built
        exact absurd built (refusal_ne_ok _ _ _ _)
  | _ =>
      simp only [fixedBytesOf] at built
      exact absurd built (refusal_ne_ok _ _ _ _)

theorem checkItem_eq_ok {item : AbiType} {source : String} {result : Unit}
    (checked : checkItem item source = .ok result) : item.isEmptyTuple = false := by
  cases empty : item.isEmptyTuple with
  | false => rfl
  | true => simp [checkItem, empty, malformed, Outcome.fault] at checked

theorem wellFormed_of_fixedArrayOf {item type : AbiType} {length : Value}
    (inner : item.WellFormed) (built : fixedArrayOf item length = .ok type) :
    type.WellFormed := by
  rcases Outcome.bind_eq_ok_iff.mp built with ⟨text, _, built⟩
  cases length with
  | int number =>
      by_cases positive : 0 < number
      · simp only [positive, if_true, Outcome.bind_eq_ok_iff] at built
        rcases built with ⟨_, checked, built⟩
        simp only [Outcome.pure_eq_ok, Except.ok.injEq] at built
        subst built
        have nonempty := checkItem_eq_ok checked
        simp only [WellFormed]
        exact ⟨by omega, nonempty, inner⟩
      · simp [positive, malformed, Outcome.fault] at built
  | _ => simp [malformed, Outcome.fault] at built

theorem wellFormed_of_arrayOf {item type : AbiType} (inner : item.WellFormed)
    (built : arrayOf item = .ok type) : type.WellFormed := by
  rcases Outcome.bind_eq_ok_iff.mp built with ⟨_, checked, built⟩
  simp only [Outcome.pure_eq_ok, Except.ok.injEq] at built
  subst built
  exact ⟨checkItem_eq_ok checked, inner⟩

theorem wellFormed_of_tupleOf {components : List AbiType} {type : AbiType}
    (inner : ∀ component ∈ components, component.WellFormed)
    (built : tupleOf components = .ok type) : type.WellFormed := by
  cases empty : components.any isEmptyTuple with
  | true => simp [tupleOf, empty, malformed, Outcome.fault] at built
  | false =>
      simp only [tupleOf, empty, Bool.false_eq_true, if_false, Except.ok.injEq] at built
      subst built
      simp only [WellFormed, allWellFormed_iff]
      intro component member
      have nonempty := List.any_eq_false.mp empty component member
      exact ⟨by simpa using nonempty, inner component member⟩

/-- Everything that can be built is well-formed. -/
theorem Constructed.wellFormed {type : AbiType} (constructed : type.Constructed) :
    type.WellFormed := by
  induction constructed with
  | uint _ built =>
      rcases Outcome.bind_eq_ok_iff.mp built with ⟨width, found, built⟩
      cases built
      exact isWidth_of_widthOf found
  | int _ built =>
      rcases Outcome.bind_eq_ok_iff.mp built with ⟨width, found, built⟩
      cases built
      exact isWidth_of_widthOf found
  | fixedBytes _ built => exact wellFormed_of_fixedBytesOf built
  | fixedArray _ _ built inner => exact wellFormed_of_fixedArrayOf inner built
  | array _ built inner => exact wellFormed_of_arrayOf inner built
  | tuple _ built inner => exact wellFormed_of_tupleOf inner built
  | address | bool | bytes | string => trivial

/-- Arrays of every positive length whose text can be shown can be built. -/
theorem Constructed.ofLength {item : AbiType} {length : Nat} (inner : item.Constructed)
    (nonempty : item.isEmptyTuple = false) (positive : 0 < length)
    (short : length < 10 ^ Text.digitLimit) : Constructed (.fixedArray item length) := by
  have showable : Value.isShowable (.int length) = true := by
    rw [Value.isShowable, Int.natAbs_natCast]
    exact decide_eq_true short
  have text : Value.displayed (.int length) = .ok (Value.int length).display := by
    rw [Value.displayed, if_pos showable]
  refine .fixedArray (.int length) inner ?_
  simp [fixedArrayOf, text, checkItem, nonempty, positive]

/-- Types that can be built and are no empty tuples can be the members of a block. -/
theorem allWellFormed_of_constructed {types : List AbiType}
    (constructed : ∀ type ∈ types, type.Constructed)
    (nonempty : ∀ type ∈ types, type.isEmptyTuple = false) : AllWellFormed types := by
  rw [allWellFormed_iff]
  intro type member
  exact ⟨nonempty type member, (constructed type member).wellFormed⟩

/-- Every value but that of an empty tuple occupies at least one word. -/
theorem wordLength_le_staticSize {type : AbiType} (wellFormed : type.WellFormed)
    (nonempty : type.isEmptyTuple = false) : Bytes.wordLength ≤ type.staticSize := by
  induction type with
  | fixedArray item length ih =>
      rcases wellFormed with ⟨positive, itemNonempty, itemWellFormed⟩
      have itemWidth := ih itemWellFormed itemNonempty
      calc Bytes.wordLength ≤ item.staticSize := itemWidth
        _ ≤ item.staticSize * length := Nat.le_mul_of_pos_right _ positive
  | tuple components ih =>
      cases components with
      | nil => simp [isEmptyTuple] at nonempty
      | cons component components =>
          rcases wellFormed with ⟨firstNonempty, firstWellFormed, _⟩
          have firstWidth := ih component (by simp) firstWellFormed firstNonempty
          simp only [staticSize, staticSizes]
          omega
  | _ => exact Nat.le_refl _

/-- The words that are counted for a member of a block are not more than its head occupies. -/
theorem headWords_le {type : AbiType} (wellFormed : type.WellFormed)
    (nonempty : type.isEmptyTuple = false) :
    Bytes.wordLength * type.headWords ≤ type.headSize := by
  have width := wordLength_le_staticSize wellFormed nonempty
  cases type with
  | fixedArray item length =>
      rcases wellFormed with ⟨_, itemNonempty, itemWellFormed⟩
      have itemWidth := wordLength_le_staticSize itemWellFormed itemNonempty
      cases dynamic : item.isDynamic with
      | true => simp [headWords, headSize, isDynamic, dynamic]
      | false =>
          simp only [headWords, headSize, isDynamic, dynamic, staticSize, Bool.false_eq_true,
            if_false]
          exact Nat.mul_le_mul_right _ itemWidth
  | _ =>
      simp only [headWords, headSize]
      split <;> omega

end AbiType

end ContractClient
