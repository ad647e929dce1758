import ContractClient.Proofs.Abi.RoundTrip
import ContractClient.Proofs.Abi.Size

/-!
# Members of arrays and tuples

Arrays of both kinds and tuples are encoded alike: as their members, each of which is an item with a
type of its own (`AbiType.ConsistsOf`). `AbiType.memberInduction` is the induction over types in
which they are one case. A block of static members holds the payloads of the members one after the
other (`AbiType.block?_members_iff`), and a value alone is encoded as its payload, behind an offset
if it is dynamic (`AbiType.encodeSingle_eq_ok_iff`).
-/

namespace ContractClient

namespace AbiType

/-- Arrays and tuples. -/
def isCompound : AbiType → Bool
  | fixedArray _ _ | array _ | tuple _ => true
  | _ => false

/-- The types of the members of an array or a tuple. -/
def HasMembers : AbiType → List AbiType → Prop
  | fixedArray item length, types => types = List.replicate length item
  | array item, types => ∃ count, types = List.replicate count item
  | tuple components, types => types = components
  | _, _ => False

/-- A value is made up of members of the types that its type asks for. -/
structure ConsistsOf (type : AbiType) (value : Value) (members : List (AbiType × Value)) :
    Prop where
  types : HasMembers type (members.map Prod.fst)
  items : value.items? = some (members.map Prod.snd)

/-- A type is a single word, a byte string, or an array or a tuple. -/
theorem memberInduction {motive : AbiType → Prop}
    (word : ∀ type, type.isValueType = true → motive type) (bytes : motive .bytes)
    (string : motive .string)
    (compound : ∀ type, type.isCompound = true → (∀ value members, ConsistsOf type value members →
      ∀ member ∈ members, motive member.1) → motive type) (type : AbiType) : motive type := by
  induction type with
  | uint | int | address | bool | fixedBytes => exact word _ rfl
  | bytes => exact bytes
  | string => exact string
  | fixedArray item length ih =>
      apply compound _ rfl
      intro value members consists member found
      have same := (List.eq_replicate_iff.mp consists.types).2 _ (List.mem_map_of_mem found)
      rwa [same]
  | array item ih =>
      apply compound _ rfl
      intro value members consists member found
      rcases consists.types with ⟨count, kinds⟩
      have same := (List.eq_replicate_iff.mp kinds).2 _ (List.mem_map_of_mem found)
      rwa [same]
  | tuple components ih =>
      apply compound _ rfl
      intro value members consists member found
      have kinds : members.map Prod.fst = components := consists.types
      exact ih _ (kinds ▸ List.mem_map_of_mem found)

section Pairs

variable {α β : Type} {members : List α} {contents : List β}

theorem forall₂_imp_of_mem {made madeToo : α → β → Prop}
    (weaker : ∀ member ∈ members, ∀ content, made member content → madeToo member content)
    (each : List.Forall₂ made members contents) : List.Forall₂ madeToo members contents := by
  have both := (List.forall₂_and_left members contents).mpr ⟨weaker, each⟩
  exact both.imp fun _ content both => both.1 content both.2

theorem forall₂_congr_of_mem {made madeToo : α → β → Prop}
    (same : ∀ member ∈ members, ∀ content, made member content ↔ madeToo member content) :
    List.Forall₂ made members contents ↔ List.Forall₂ madeToo members contents := by
  constructor
  · exact forall₂_imp_of_mem fun member found content => (same member found content).mp
  · exact forall₂_imp_of_mem fun member found content => (same member found content).mpr

theorem exists_forall₂_iff {made : α → β → Prop} :
    (∃ contents, List.Forall₂ made members contents) ↔
      ∀ member ∈ members, ∃ content, made member content := by
  induction members with
  | nil => simp
  | cons member members ih =>
      rw [List.forall_mem_cons, ← ih]
      simp only [List.forall₂_cons_left_iff]
      constructor
      · rintro ⟨_, content, contents, first, others, rfl⟩
        exact ⟨⟨content, first⟩, contents, others⟩
      · rintro ⟨⟨content, first⟩, contents, others⟩
        exact ⟨_, content, contents, first, others, rfl⟩

theorem exists_member_of_forall₂ {made : α → β → Prop}
    (each : List.Forall₂ made members contents) :
    ∀ content ∈ contents, ∃ member ∈ members, made member content := by
  induction each with
  | nil => simp
  | @cons member content members contents first _ ih =>
      rw [List.forall_mem_cons]
      refine ⟨⟨member, List.mem_cons_self, first⟩, ?_⟩
      intro other found
      rcases ih other found with ⟨owner, isMember, inner⟩
      exact ⟨owner, List.mem_cons_of_mem _ isMember, inner⟩

end Pairs

section Kinds

variable {type : AbiType} {value : Value} {members : List (AbiType × Value)}

theorem isEmptyTuple_of_isValueType (single : type.isValueType = true) :
    type.isEmptyTuple = false := by
  cases type <;> first | rfl | cases single

theorem isDynamic_of_isValueType (single : type.isValueType = true) : type.isDynamic = false := by
  cases type <;> first | rfl | cases single

theorem isValueType_of_isCompound (compound : type.isCompound = true) :
    type.isValueType = false := by
  cases type <;> first | rfl | cases compound

theorem ConsistsOf.isCompound (consists : ConsistsOf type value members) :
    type.isCompound = true := by
  have kinds := consists.types
  cases type <;> first | rfl | cases kinds

theorem ConsistsOf.wellFormed (consists : ConsistsOf type value members)
    (wellFormed : type.WellFormed) : ∀ member ∈ members, member.1.WellFormed := by
  have kinds := consists.types
  have all : AllWellFormed (members.map Prod.fst) := by
    cases type with
    | fixedArray item length =>
        rw [show members.map Prod.fst = List.replicate length item from kinds]
        exact allWellFormed_replicate wellFormed.2.1 wellFormed.2.2
    | array item =>
        rcases kinds with ⟨count, kinds⟩
        rw [kinds]
        exact allWellFormed_replicate wellFormed.1 wellFormed.2
    | tuple components =>
        rw [show members.map Prod.fst = components from kinds]
        exact wellFormed
    | _ => cases kinds
  intro member found
  exact (allWellFormed_iff.mp all member.1 (List.mem_map_of_mem found)).2

theorem anyDynamic_members_iff : anyDynamic (members.map Prod.fst) = false ↔
    ∀ member ∈ members, member.1.isDynamic = false := by
  induction members with
  | nil => simp [anyDynamic]
  | cons member members ih =>
      rw [List.map_cons, anyDynamic, Bool.or_eq_false_iff, ih, List.forall_mem_cons]

theorem ConsistsOf.anyDynamic (consists : ConsistsOf type value members)
    (static : type.isDynamic = false) : anyDynamic (members.map Prod.fst) = false := by
  have kinds := consists.types
  cases type with
  | fixedArray item length =>
      have itemStatic : item.isDynamic = false := static
      rw [show members.map Prod.fst = List.replicate length item from kinds, anyDynamic_replicate,
        itemStatic, Bool.and_false]
  | array item => cases static
  | tuple components =>
      rw [show members.map Prod.fst = components from kinds]
      exact static
  | _ => cases kinds

end Kinds

section Members

variable {isText : Value → Prop} {type item : AbiType} {types : List AbiType}
  {value : Value} {items : List Value} {members : List (AbiType × Value)} {content : Bytes}

/-- The members of a value are its items with the types that they have as members. -/
theorem exists_consistsOf_iff (isMade : List AbiType → List Value → Prop) :
    (∃ members, ConsistsOf type value members ∧
      isMade (members.map Prod.fst) (members.map Prod.snd)) ↔
    ∃ types items, HasMembers type types ∧ value.items? = some items ∧
      types.length = items.length ∧ isMade types items := by
  constructor
  · rintro ⟨members, ⟨types, items⟩, made⟩
    exact ⟨_, _, types, items, by simp, made⟩
  · rintro ⟨types, items, kinds, found, count, made⟩
    have sameTypes : (types.zip items).map Prod.fst = types := List.map_fst_zip (Nat.le_of_eq count)
    have sameItems : (types.zip items).map Prod.snd = items :=
      List.map_snd_zip (Nat.le_of_eq count.symm)
    rw [← sameTypes] at kinds
    rw [← sameItems] at found
    refine ⟨types.zip items, ⟨kinds, found⟩, ?_⟩
    rwa [sameTypes, sameItems]

variable [AddressCheck]

theorem fitsAll_members_iff :
    FitsAll isText (members.map Prod.fst) (members.map Prod.snd) ↔
      ∀ member ∈ members, Fits isText member.1 member.2 := by
  induction members with
  | nil => simp [FitsAll]
  | cons member members ih => rw [List.map_cons, List.map_cons, FitsAll, ih, List.forall_mem_cons]

/-- An array or a tuple fits if its members do. -/
theorem fits_iff_of_isCompound (compound : type.isCompound = true) :
    Fits isText type value ↔ ∃ members, ConsistsOf type value members ∧
      ∀ member ∈ members, Fits isText member.1 member.2 := by
  simp only [← fitsAll_members_iff]
  rw [exists_consistsOf_iff (FitsAll isText)]
  cases type with
  | fixedArray item length =>
      constructor
      · rintro ⟨items, found, rfl, each⟩
        exact ⟨_, items, rfl, found, List.length_replicate, fitsAll_replicate_iff.mpr each⟩
      · rintro ⟨_, items, rfl, found, count, fits⟩
        rw [List.length_replicate] at count
        subst count
        exact ⟨items, found, rfl, fitsAll_replicate_iff.mp fits⟩
  | array item =>
      constructor
      · rintro ⟨items, found, each⟩
        exact ⟨_, items, ⟨_, rfl⟩, found, List.length_replicate, fitsAll_replicate_iff.mpr each⟩
      · rintro ⟨_, items, ⟨count, rfl⟩, found, same, fits⟩
        rw [List.length_replicate] at same
        subst same
        exact ⟨items, found, fitsAll_replicate_iff.mp fits⟩
  | tuple components =>
      constructor
      · rintro ⟨items, found, fits⟩
        exact ⟨components, items, rfl, found, length_of_fitsAll fits, fits⟩
      · rintro ⟨_, items, rfl, found, _, fits⟩
        exact ⟨items, found, fits⟩
  | _ => cases compound

/-- A static array or tuple is encoded in a block as the block of its members. -/
theorem payload?_iff_of_static (compound : type.isCompound = true)
    (static : type.isDynamic = false) :
    payload? type value = some content ↔ ∃ members, ConsistsOf type value members ∧
      block? (members.map Prod.fst) (members.map Prod.snd) = some content := by
  rw [exists_consistsOf_iff fun types items => block? types items = some content]
  cases type with
  | fixedArray item length =>
      rw [payload?_fixedArray_eq_some_iff]
      constructor
      · rintro ⟨items, found, count, encoded⟩
        exact ⟨_, items, rfl, found, List.length_replicate.trans count.symm, encoded⟩
      · rintro ⟨_, items, rfl, found, count, encoded⟩
        exact ⟨items, found, count.symm.trans List.length_replicate, encoded⟩
  | tuple components =>
      rw [payload?_tuple_eq_some_iff]
      constructor
      · rintro ⟨items, found, encoded⟩
        have fits := (exists_block_iff_fitsAll.mp ⟨content, encoded⟩).1
        exact ⟨components, items, rfl, found, length_of_fitsAll fits, encoded⟩
      · rintro ⟨_, items, rfl, found, _, encoded⟩
        exact ⟨items, found, encoded⟩
  | array item => cases static
  | _ => cases compound

/-- An array of any length is encoded in a block as the number and the block of its members. -/
theorem payload?_array_iff : payload? (.array item) value = some content ↔
    ∃ members, ConsistsOf (.array item) value members ∧ members.length < 2 ^ 256 ∧
      ∃ body, block? (members.map Prod.fst) (members.map Prod.snd) = some body ∧
        Bytes.word members.length ++ body = content := by
  have members := @exists_consistsOf_iff (.array item) value fun types items =>
    items.length < 2 ^ 256 ∧ ∃ body, block? types items = some body ∧
      Bytes.word items.length ++ body = content
  simp only [List.length_map] at members
  rw [members, payload?_array_eq_some_iff]
  constructor
  · rintro ⟨items, body, found, short, encoded, same⟩
    exact ⟨_, items, ⟨_, rfl⟩, found, List.length_replicate, short, body, encoded, same⟩
  · rintro ⟨_, items, ⟨count, rfl⟩, found, count, short, body, encoded, same⟩
    rw [List.length_replicate] at count
    subst count
    exact ⟨items, body, found, short, encoded, same⟩

end Members

section Static

variable {type : AbiType} {value : Value} {members : List (AbiType × Value)}
  {contents : List Bytes} {parts : List Part} {content block : Bytes}

/-- Parts that stand in front of all offsets follow each other. -/
theorem layout?_static (contents : List Bytes) :
    layout? (contents.map (Part.mk false)) = some contents.flatten := by
  have laidOut : ∀ offset, heads offset (contents.map (Part.mk false)) = contents.flatten ∧
      tails (contents.map (Part.mk false)) = [] ∧
      offsetsFit offset (contents.map (Part.mk false)) = true := by
    intro offset
    induction contents with
    | nil => exact ⟨rfl, rfl, rfl⟩
    | cons content contents ih => simp [heads, tails, offsetsFit, ih]
  rcases laidOut (headLength (contents.map (Part.mk false))) with ⟨front, back, fit⟩
  rw [layout?, if_pos fit, layout, front, back, List.append_nil]

variable [AddressCheck]

theorem parts?_members_iff (static : anyDynamic (members.map Prod.fst) = false) :
    parts? (members.map Prod.fst) (members.map Prod.snd) = some parts ↔
      ∃ contents, List.Forall₂ (fun member content => payload? member.1 member.2 = some content)
        members contents ∧ contents.map (Part.mk false) = parts := by
  induction members generalizing parts with
  | nil => simp [parts?]
  | cons member members ih =>
      rcases Bool.or_eq_false_iff.mp static with ⟨memberStatic, membersStatic⟩
      simp only [List.map_cons, parts?, Option.bind_eq_bind, Option.bind_eq_some_iff,
        Option.some.injEq, ih membersStatic, List.forall₂_cons_left_iff, memberStatic]
      constructor
      · rintro ⟨content, payload, _, ⟨contents, others, rfl⟩, rfl⟩
        exact ⟨content :: contents, ⟨content, contents, payload, others, rfl⟩, rfl⟩
      · rintro ⟨_, ⟨content, contents, payload, others, rfl⟩, rfl⟩
        exact ⟨content, payload, _, ⟨contents, others, rfl⟩, rfl⟩

/-- The block of static members holds their payloads one after the other. -/
theorem block?_members_iff (static : anyDynamic (members.map Prod.fst) = false) :
    block? (members.map Prod.fst) (members.map Prod.snd) = some block ↔
      ∃ contents, List.Forall₂ (fun member content => payload? member.1 member.2 = some content)
        members contents ∧ contents.flatten = block := by
  simp only [block?, Option.bind_eq_some_iff, parts?_members_iff static]
  constructor
  · rintro ⟨_, ⟨contents, each, rfl⟩, laidOut⟩
    rw [layout?_static, Option.some.injEq] at laidOut
    exact ⟨contents, each, laidOut⟩
  · rintro ⟨contents, each, rfl⟩
    exact ⟨_, ⟨contents, each, rfl⟩, layout?_static contents⟩

/-- A value alone is encoded as its payload, behind one offset if it is dynamic. -/
theorem encodeSingle_eq_ok_iff (nonempty : type.isEmptyTuple = false) :
    encodeSingle type value = .ok block ↔ ∃ content, payload? type value = some content ∧
      (if type.isDynamic then Bytes.word Bytes.wordLength ++ content else content) = block := by
  have alone (content : Bytes) : layout? [⟨type.isDynamic, content⟩] = some block ↔
      (if type.isDynamic then Bytes.word Bytes.wordLength ++ content else content) = block := by
    cases dynamic : type.isDynamic with
    | true =>
        have fits : fitsWord Bytes.wordLength = true := rfl
        simp [layout?, layout, offsetsFit, headLength, heads, tails, fits]
    | false => simp [layout?, layout, offsetsFit, heads, tails]
  have noneEmpty : [type].any isEmptyTuple = false := by simpa using nonempty
  simp only [encodeSingle, encode_eq_ok_iff, List.length_singleton, noneEmpty, true_and, block?,
    Option.bind_eq_some_iff, parts?_cons_eq_some_iff, parts?_nil_eq_some_iff]
  constructor
  · rintro ⟨_, ⟨_, _, content, _, ⟨⟩, payload, ⟨-, rfl⟩, rfl⟩, laidOut⟩
    exact ⟨content, payload, (alone content).mp laidOut⟩
  · rintro ⟨content, payload, laidOut⟩
    exact ⟨_, ⟨_, _, content, _, rfl, payload, ⟨rfl, rfl⟩, rfl⟩, (alone content).mpr laidOut⟩

/-- A static value has a payload exactly if it fits. -/
theorem exists_payload_iff_of_static (wellFormed : type.WellFormed)
    (static : type.isDynamic = false) :
    (∃ content, payload? type value = some content) ↔ Fits Value.HasEncoding type value := by
  rw [exists_payload_iff]
  apply and_iff_left_of_imp
  intro fits
  apply isAddressable_of_tailSize wellFormed value fits
  rw [static]
  nofun

end Static

end AbiType

end ContractClient
