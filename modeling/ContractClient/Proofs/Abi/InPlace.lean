import ContractClient.Abi.Topic
import ContractClient.Proofs.Abi.Members
import Mathlib.Algebra.BigOperators.Ring.List
import Mathlib.Algebra.Ring.Nat

/-!
# In-place encodings

The topic of an indexed value that is no single word is the digest of its in-place encoding. Inside
arrays and tuples every member is encoded in whole words (`AbiType.InPlace`), byte strings without
their length, and the encodings of the members follow each other without offsets. On the outside
byte strings are not even completed to words (`AbiType.IsHashed`).

The encoder of blocks lays the same values out in another way. It also takes other sequences than
lists and tuples, of which there are no topics. Otherwise both accept the same values
(`exists_encodeTopic_iff`), and where no offsets and lengths are needed inside they produce the same
bytes (`encodeTopic_agrees`).
-/

namespace ContractClient

namespace AbiType

/-- A value is a list or a tuple of members of the types that its type asks for. -/
structure IsListOf (type : AbiType) (value : Value) (members : List (AbiType × Value)) : Prop where
  types : HasMembers type (members.map Prod.fst)
  items : value.listItems? = some (members.map Prod.snd)

/-- The encoding of a value in place: a single word is encoded as in a block, a byte string is
completed to whole words, and the encodings of the members of an array or a tuple follow each
other. -/
inductive InPlace [AddressCheck] : AbiType → Value → Bytes → Prop
  | word {type : AbiType} {value : Value} {content : Bytes} (single : type.isValueType = true)
      (encoded : encodeSingle type value = .ok content) : InPlace type value content
  | string {text : String} : InPlace .string (.text text) (Bytes.padRight (Bytes.ofText text))
  | bytes {value : Value} {octets : Bytes} (found : value.octets? = some octets) :
      InPlace .bytes value (Bytes.padRight octets)
  | members {type : AbiType} {value : Value} {members : List (AbiType × Value)}
      {contents : List Bytes} (lists : IsListOf type value members)
      (each : List.Forall₂ (fun member content => InPlace member.1 member.2 content) members
        contents) : InPlace type value contents.flatten

/-- What the topic of a value is the digest of: the bytes of a byte string as they are, and the
encodings of the members of an array or a tuple in whole words, one after the other. -/
inductive IsHashed [AddressCheck] : AbiType → Value → Bytes → Prop
  | string {text : String} : IsHashed .string (.text text) (Bytes.ofText text)
  | bytes {value : Value} {octets : Bytes} (found : value.octets? = some octets) :
      IsHashed .bytes value octets
  | members {type : AbiType} {value : Value} {members : List (AbiType × Value)}
      {contents : List Bytes} (lists : IsListOf type value members)
      (each : List.Forall₂ (fun member content => InPlace member.1 member.2 content) members
        contents) (whole : ∀ content ∈ contents, Bytes.wordLength ∣ content.length) :
      IsHashed type value contents.flatten

section Lists

variable {type : AbiType} {value : Value} {items : List Value} {members : List (AbiType × Value)}

theorem items?_of_listItems? (listed : value.listItems? = some items) :
    value.items? = some items := by
  cases value with
  | list | tuple => exact listed
  | _ => cases listed

theorem listItems?_eq_items? (plain : value.IsPlain) : value.listItems? = value.items? := by
  cases value with
  | sequence => cases plain
  | _ => rfl

theorem allPlain_iff : Value.AllPlain items ↔ ∀ item ∈ items, item.IsPlain := by
  induction items with
  | nil => simp [Value.AllPlain]
  | cons item items ih => rw [Value.AllPlain, ih, List.forall_mem_cons]

theorem isPlain_iff_of_listItems? (listed : value.listItems? = some items) :
    value.IsPlain ↔ ∀ item ∈ items, item.IsPlain := by
  cases value with
  | list | tuple =>
      cases listed
      exact allPlain_iff
  | _ => cases listed

theorem IsListOf.consistsOf (lists : IsListOf type value members) :
    ConsistsOf type value members :=
  ⟨lists.types, items?_of_listItems? lists.items⟩

/-- Where there are no other sequences, what consists of members is a list or a tuple of them. -/
theorem isListOf_iff_of_isPlain (plain : value.IsPlain) :
    IsListOf type value members ↔ ConsistsOf type value members := by
  constructor
  · exact IsListOf.consistsOf
  · rintro ⟨types, items⟩
    exact ⟨types, (listItems?_eq_items? plain).trans items⟩

theorem IsListOf.isPlain_iff (lists : IsListOf type value members) :
    value.IsPlain ↔ ∀ member ∈ members, member.2.IsPlain := by
  rw [isPlain_iff_of_listItems? lists.items, List.forall_mem_map]

theorem exists_isListOf_iff (isMade : List AbiType → List Value → Prop) :
    (∃ members, IsListOf type value members ∧
      isMade (members.map Prod.fst) (members.map Prod.snd)) ↔
    ∃ types items, HasMembers type types ∧ value.listItems? = some items ∧
      types.length = items.length ∧ isMade types items := by
  constructor
  · rintro ⟨members, ⟨types, items⟩, made⟩
    exact ⟨_, _, types, items, by simp, made⟩
  · rintro ⟨types, items, kinds, listed, count, made⟩
    have found := items?_of_listItems? listed
    rcases (exists_consistsOf_iff isMade).mpr ⟨types, items, kinds, found, count, made⟩ with
      ⟨members, consists, madeOf⟩
    have same := consists.items
    rw [found, ← listed] at same
    exact ⟨members, ⟨consists.types, same⟩, madeOf⟩

end Lists

section Encoder

variable {type item : AbiType} {value : Value} {items : List Value}
  {members : List (AbiType × Value)} {content : Bytes}

theorem checkCount_eq_ok_iff {count : Nat} {passed : Unit} :
    encodeInPlace.checkCount type count items = .ok passed ↔ items.length = count := by
  rw [encodeInPlace.checkCount]
  split
  · next same => exact iff_of_true rfl same
  · next other => exact iff_of_false nofun other

/-- However an array of a wrong length is refused, one of the right length is not. -/
theorem checkLength_eq_ok_iff {count : Nat} {passed : Unit} :
    encodeInPlace.checkLength type count items = .ok passed ↔ items.length = count := by
  rw [encodeInPlace.checkLength]
  split
  · next same => exact iff_of_true rfl same
  · next other =>
      split
      · exact iff_of_false nofun other
      · split
        · exact iff_of_false nofun other
        · exact checkCount_eq_ok_iff

variable [AddressCheck]

theorem encodeAllInPlace_replicate_iff :
    encodeAllInPlace (List.replicate items.length item) items = .ok content ↔
      ∃ contents, items.mapM (encodeInPlace true item) = .ok contents ∧
        contents.flatten = content := by
  induction items generalizing content with
  | nil => simp [encodeAllInPlace]
  | cons entry items ih =>
      simp only [List.length_cons, List.replicate_succ, encodeAllInPlace, List.mapM_cons,
        Outcome.bind_eq_ok_iff, Outcome.pure_eq_ok, Except.ok.injEq, ih]
      constructor
      · rintro ⟨first, encoded, _, ⟨contents, others, rfl⟩, rfl⟩
        exact ⟨first :: contents, ⟨first, encoded, contents, others, rfl⟩, rfl⟩
      · rintro ⟨_, ⟨first, encoded, contents, others, rfl⟩, rfl⟩
        exact ⟨first, encoded, _, ⟨contents, others, rfl⟩, rfl⟩

theorem encodeAllInPlace_members_iff :
    encodeAllInPlace (members.map Prod.fst) (members.map Prod.snd) = .ok content ↔
      ∃ contents, List.Forall₂ (fun member part => encodeInPlace true member.1 member.2 = .ok part)
        members contents ∧ contents.flatten = content := by
  induction members generalizing content with
  | nil => simp [encodeAllInPlace]
  | cons member members ih =>
      simp only [List.map_cons, encodeAllInPlace, Outcome.bind_eq_ok_iff, Outcome.pure_eq_ok,
        Except.ok.injEq, ih, List.forall₂_cons_left_iff]
      constructor
      · rintro ⟨first, encoded, _, ⟨contents, others, rfl⟩, rfl⟩
        exact ⟨first :: contents, ⟨first, contents, encoded, others, rfl⟩, rfl⟩
      · rintro ⟨_, ⟨first, contents, encoded, others, rfl⟩, rfl⟩
        exact ⟨first, encoded, _, ⟨contents, others, rfl⟩, rfl⟩

/-- An array or a tuple is encoded in place, on the outside as well as inside, by encoding its
members. -/
theorem encodeInPlace_iff_of_isCompound {nested : Bool} (compound : type.isCompound = true) :
    encodeInPlace nested type value = .ok content ↔ ∃ members, IsListOf type value members ∧
      encodeAllInPlace (members.map Prod.fst) (members.map Prod.snd) = .ok content := by
  rw [exists_isListOf_iff fun types items => encodeAllInPlace types items = .ok content]
  cases type with
  | fixedArray item length =>
      rw [encodeInPlace, encodeInPlace.itemsFor]
      cases found : value.listItems? with
      | none => simp
      | some items =>
          simp only [Outcome.ok_bind, Outcome.bind_eq_ok_iff, checkLength_eq_ok_iff,
            Outcome.pure_eq_ok, Except.ok.injEq, exists_const]
          constructor
          · rintro ⟨rfl, encoded⟩
            exact ⟨_, items, rfl, rfl, List.length_replicate,
              encodeAllInPlace_replicate_iff.mpr encoded⟩
          · rintro ⟨_, _, rfl, ⟨⟩, count, encoded⟩
            rw [List.length_replicate] at count
            subst count
            exact ⟨rfl, encodeAllInPlace_replicate_iff.mp encoded⟩
  | array item =>
      rw [encodeInPlace, encodeInPlace.itemsFor]
      cases found : value.listItems? with
      | none => simp
      | some items =>
          simp only [Outcome.ok_bind, Outcome.bind_eq_ok_iff, Outcome.pure_eq_ok, Except.ok.injEq]
          constructor
          · intro encoded
            exact ⟨_, items, ⟨_, rfl⟩, rfl, List.length_replicate,
              encodeAllInPlace_replicate_iff.mpr encoded⟩
          · rintro ⟨_, _, ⟨count, rfl⟩, ⟨⟩, same, encoded⟩
            rw [List.length_replicate] at same
            subst same
            exact encodeAllInPlace_replicate_iff.mp encoded
  | tuple components =>
      rw [encodeInPlace, encodeInPlace.itemsFor]
      cases found : value.listItems? with
      | none => simp
      | some items =>
          simp only [Outcome.ok_bind, Outcome.bind_eq_ok_iff, checkCount_eq_ok_iff, exists_const]
          constructor
          · rintro ⟨count, encoded⟩
            exact ⟨_, items, rfl, rfl, count.symm, encoded⟩
          · rintro ⟨_, _, rfl, ⟨⟩, count, encoded⟩
            exact ⟨count.symm, encoded⟩
  | _ => cases compound

end Encoder

section Inside

variable {type : AbiType} {types : List AbiType} {value : Value} {content : Bytes}
  {members : List (AbiType × Value)} {contents : List Bytes}

theorem dvd_length_padRight (octets : Bytes) :
    Bytes.wordLength ∣ (Bytes.padRight octets).length := by
  rw [Bytes.length_padRight]
  simp only [Bytes.wordPadding, Bytes.wordLength]
  omega

variable [AddressCheck]

theorem inPlace_iff_of_isValueType (single : type.isValueType = true) :
    InPlace type value content ↔ encodeSingle type value = .ok content := by
  constructor
  · intro inPlace
    cases inPlace with
    | word _ encoded => exact encoded
    | string | bytes => cases single
    | members lists each =>
        rw [isValueType_of_isCompound lists.consistsOf.isCompound] at single
        cases single
  · exact .word single

theorem inPlace_iff_of_isCompound (compound : type.isCompound = true) :
    InPlace type value content ↔ ∃ members, IsListOf type value members ∧
      ∃ contents, List.Forall₂ (fun member content => InPlace member.1 member.2 content) members
        contents ∧ contents.flatten = content := by
  constructor
  · intro inPlace
    cases inPlace with
    | word single =>
        rw [isValueType_of_isCompound compound] at single
        cases single
    | string | bytes => cases compound
    | members lists each => exact ⟨_, lists, _, each, rfl⟩
  · rintro ⟨members, lists, contents, each, rfl⟩
    exact .members lists each

theorem inPlace_bytes_iff : InPlace .bytes value content ↔
    ∃ octets, value.octets? = some octets ∧ Bytes.padRight octets = content := by
  constructor
  · intro inPlace
    cases inPlace with
    | word single => cases single
    | bytes found => exact ⟨_, found, rfl⟩
    | members lists => cases lists.types
  · rintro ⟨octets, found, rfl⟩
    exact .bytes found

theorem inPlace_string_iff : InPlace .string value content ↔
    ∃ text, value = .text text ∧ Bytes.padRight (Bytes.ofText text) = content := by
  constructor
  · intro inPlace
    cases inPlace with
    | word single => cases single
    | string => exact ⟨_, rfl, rfl⟩
    | members lists => cases lists.types
  · rintro ⟨text, rfl, rfl⟩
    exact .string

/-- The encoder of nested values encodes them in place. -/
theorem encodeInPlace_eq_ok_iff (type : AbiType) (value : Value) (content : Bytes) :
    encodeInPlace true type value = .ok content ↔ InPlace type value content := by
  induction type using memberInduction generalizing value content with
  | word type single =>
      rw [inPlace_iff_of_isValueType single]
      cases type <;> first | exact Iff.rfl | cases single
  | bytes =>
      rw [inPlace_bytes_iff, encodeInPlace]
      cases value.octets? <;> simp
  | string =>
      rw [inPlace_string_iff]
      cases value <;> simp [encodeInPlace]
  | compound type compound ih =>
      rw [encodeInPlace_iff_of_isCompound compound, inPlace_iff_of_isCompound compound]
      refine exists_congr fun members => and_congr_right fun lists => ?_
      rw [encodeAllInPlace_members_iff]
      refine exists_congr fun contents => and_congr_left' ?_
      apply forall₂_congr_of_mem
      intro member found
      exact ih value members lists.consistsOf member found member.2

/-- What fits a type without members is no sequence. -/
theorem isPlain_of_fits (single : type.isCompound = false)
    (fits : Fits Value.HasEncoding type value) : value.IsPlain := by
  cases value with
  | list | tuple | sequence =>
      cases type with
      | fixedArray | array | tuple => cases single
      | _ => simp [Fits, Value.octets?, Value.HasEncoding] at fits
  | _ => trivial

/-- A value has an encoding in place exactly if it fits and all its sequences are lists and
tuples. -/
theorem exists_inPlace_iff (type : AbiType) (wellFormed : type.WellFormed) (value : Value) :
    (∃ content, InPlace type value content) ↔
      Fits Value.HasEncoding type value ∧ value.IsPlain := by
  induction type using memberInduction generalizing value with
  | word type single =>
      have alone : type.isCompound = false := by
        by_contra compound
        rw [isValueType_of_isCompound (Bool.of_not_eq_false compound)] at single
        cases single
      rw [and_iff_left_of_imp (isPlain_of_fits alone)]
      simp only [inPlace_iff_of_isValueType single,
        encodeSingle_eq_ok_iff (isEmptyTuple_of_isValueType single)]
      have static := isDynamic_of_isValueType single
      simp only [static, Bool.false_eq_true, if_false, exists_eq_right]
      exact exists_payload_iff_of_static wellFormed static
  | bytes =>
      rw [and_iff_left_of_imp (isPlain_of_fits rfl)]
      simp only [inPlace_bytes_iff, Fits]
      cases value.octets? <;> simp
  | string =>
      rw [and_iff_left_of_imp (isPlain_of_fits rfl)]
      simp only [inPlace_string_iff, Fits, Value.HasEncoding]
      cases value <;> simp
  | compound type compound ih =>
      have ofMember {members} (consists : ConsistsOf type value members) (member)
          (found : member ∈ members) :=
        ih value members consists member found (consists.wellFormed wellFormed member found)
          member.2
      simp only [inPlace_iff_of_isCompound compound, fits_iff_of_isCompound compound]
      constructor
      · rintro ⟨_, members, lists, contents, each, rfl⟩
        have all := exists_forall₂_iff.mp ⟨contents, each⟩
        have both := fun member found =>
          (ofMember lists.consistsOf member found).mp (all member found)
        exact ⟨⟨members, lists.consistsOf, fun member found => (both member found).1⟩,
          lists.isPlain_iff.mpr fun member found => (both member found).2⟩
      · rintro ⟨⟨members, consists, fits⟩, plain⟩
        have lists := (isListOf_iff_of_isPlain plain).mpr consists
        have all := fun member found => (ofMember consists member found).mpr
          ⟨fits member found, lists.isPlain_iff.mp plain member found⟩
        rcases exists_forall₂_iff.mpr all with ⟨contents, each⟩
        exact ⟨_, members, lists, contents, each, rfl⟩

/-- Where nothing is dynamic, the encoding in place is the payload. -/
theorem inPlace_iff_of_static (static : type.isDynamic = false) (plain : value.IsPlain) :
    InPlace type value content ↔ payload? type value = some content := by
  induction type using memberInduction generalizing value content with
  | word type single =>
      rw [inPlace_iff_of_isValueType single,
        encodeSingle_eq_ok_iff (isEmptyTuple_of_isValueType single)]
      simp [static]
  | bytes | string => cases static
  | compound type compound ih =>
      rw [inPlace_iff_of_isCompound compound, payload?_iff_of_static compound static]
      simp only [isListOf_iff_of_isPlain plain]
      refine exists_congr fun members => and_congr_right fun consists => ?_
      have lists := (isListOf_iff_of_isPlain plain).mpr consists
      have membersStatic := consists.anyDynamic static
      rw [block?_members_iff membersStatic]
      refine exists_congr fun contents => and_congr_left' ?_
      apply forall₂_congr_of_mem
      intro member found content
      exact ih value members consists member found
        (anyDynamic_members_iff.mp membersStatic member found)
        (lists.isPlain_iff.mp plain member found)

/-- Every encoding in place takes whole words. -/
theorem dvd_length_inPlace (type : AbiType) (wellFormed : type.WellFormed)
    (inPlace : InPlace type value content) : Bytes.wordLength ∣ content.length := by
  induction type using memberInduction generalizing value content with
  | word type single =>
      have encoded := (inPlace_iff_of_isValueType single).mp inPlace
      rcases (encodeSingle_eq_ok_iff (isEmptyTuple_of_isValueType single)).mp encoded with
        ⟨payload, written, same⟩
      rw [isDynamic_of_isValueType single] at same
      subst same
      exact dvd_length_payload wellFormed written
  | bytes =>
      rcases inPlace_bytes_iff.mp inPlace with ⟨octets, _, rfl⟩
      exact dvd_length_padRight octets
  | string =>
      rcases inPlace_string_iff.mp inPlace with ⟨text, _, rfl⟩
      exact dvd_length_padRight _
  | compound type compound ih =>
      rcases (inPlace_iff_of_isCompound compound).mp inPlace with
        ⟨members, lists, contents, each, rfl⟩
      have consists := lists.consistsOf
      rw [List.length_flatten]
      apply List.dvd_sum
      intro length isLength
      rcases List.mem_map.mp isLength with ⟨content, found, rfl⟩
      rcases exists_member_of_forall₂ each content found with ⟨member, isMember, inner⟩
      exact ih value members consists member isMember
        (consists.wellFormed wellFormed member isMember) inner

end Inside

section Outside

variable [AddressCheck] {type item : AbiType} {value : Value} {content topic block : Bytes}

/-- What is hashed of a byte string is not completed to words; of other values that are no single
words it is the encodings of their members. -/
theorem encodeInPlace_eq_ok_iff_of_outside (wellFormed : type.WellFormed)
    (stored : type.isValueType = false) :
    encodeInPlace false type value = .ok content ↔ IsHashed type value content := by
  induction type using memberInduction with
  | word type single =>
      rw [single] at stored
      cases stored
  | bytes =>
      constructor
      · intro encoded
        rw [encodeInPlace] at encoded
        split at encoded
        · next octets found =>
            cases encoded
            exact .bytes found
        · cases encoded
      · intro hashed
        cases hashed with
        | bytes found => simp [encodeInPlace, found]
        | members lists => cases lists.types
  | string =>
      constructor
      · intro encoded
        cases value with
        | text text =>
            rw [encodeInPlace] at encoded
            cases encoded
            exact .string
        | _ => simp [encodeInPlace] at encoded
      · intro hashed
        cases hashed with
        | string => rw [encodeInPlace]; rfl
        | members lists => cases lists.types
  | compound type compound =>
      rw [encodeInPlace_iff_of_isCompound compound]
      have same {members : List (AbiType × Value)} {contents : List Bytes} :=
        @forall₂_congr_of_mem _ _ members contents _ _ fun member _ content =>
          encodeInPlace_eq_ok_iff member.1 member.2 content
      constructor
      · rintro ⟨members, lists, encoded⟩
        rcases encodeAllInPlace_members_iff.mp encoded with ⟨contents, each, rfl⟩
        have inner := same.mp each
        refine .members lists inner fun content found => ?_
        rcases exists_member_of_forall₂ inner content found with ⟨member, isMember, inPlace⟩
        have memberFormed := lists.consistsOf.wellFormed wellFormed member isMember
        exact dvd_length_inPlace member.1 memberFormed inPlace
      · intro hashed
        cases hashed with
        | string | bytes => cases compound
        | members lists each =>
            exact ⟨_, lists, encodeAllInPlace_members_iff.mpr ⟨_, same.mpr each, rfl⟩⟩

/-- On the outside arrays and tuples are encoded as they are inside others. -/
theorem inPlace_iff_of_outside (compound : type.isCompound = true) :
    InPlace type value content ↔ encodeInPlace false type value = .ok content := by
  rw [← encodeInPlace_eq_ok_iff, encodeInPlace_iff_of_isCompound compound,
    encodeInPlace_iff_of_isCompound compound]

theorem exists_encodeInPlace_iff (wellFormed : type.WellFormed)
    (stored : type.isValueType = false) :
    (∃ content, encodeInPlace false type value = .ok content) ↔
      Fits Value.HasEncoding type value ∧ value.IsPlain := by
  induction type using memberInduction with
  | word type single =>
      rw [single] at stored
      cases stored
  | bytes =>
      rw [and_iff_left_of_imp (isPlain_of_fits rfl)]
      simp only [encodeInPlace, Fits]
      cases value.octets? <;> simp
  | string =>
      rw [and_iff_left_of_imp (isPlain_of_fits rfl)]
      simp only [Fits, Value.HasEncoding]
      cases value <;> simp [encodeInPlace]
  | compound type compound =>
      simp only [← inPlace_iff_of_outside compound]
      exact exists_inPlace_iff type wellFormed value

/-- An array of static items is encoded in place as it is in a block, without the offset and the
length in front. -/
theorem inPlace_of_encodeSingle_array (static : item.isDynamic = false) (plain : value.IsPlain)
    (encoded : encodeSingle (.array item) value = .ok block) :
    InPlace (.array item) value (block.drop (2 * Bytes.wordLength)) := by
  rcases (encodeSingle_eq_ok_iff rfl).mp encoded with ⟨_, payload, rfl⟩
  rcases payload?_array_iff.mp payload with ⟨members, consists, _, body, blockOfMembers, rfl⟩
  have lists := (isListOf_iff_of_isPlain plain).mpr consists
  have membersStatic : ∀ member ∈ members, member.1.isDynamic = false := by
    rcases consists.types with ⟨count, kinds⟩
    intro member found
    have same := (List.eq_replicate_iff.mp kinds).2 _ (List.mem_map_of_mem found)
    rwa [same]
  rcases (block?_members_iff (anyDynamic_members_iff.mpr membersStatic)).mp blockOfMembers with
    ⟨contents, each, rfl⟩
  have inner := (forall₂_congr_of_mem fun member found content =>
    inPlace_iff_of_static (membersStatic member found)
      (lists.isPlain_iff.mp plain member found)).mpr each
  have front : (Bytes.word Bytes.wordLength ++ Bytes.word members.length).length =
      2 * Bytes.wordLength := by
    rw [List.length_append, Bytes.length_word, Bytes.length_word, Nat.two_mul]
  have body : (Bytes.word Bytes.wordLength ++ (Bytes.word members.length ++ contents.flatten)).drop
      (2 * Bytes.wordLength) = contents.flatten := by
    rw [← List.append_assoc]
    exact List.drop_left' front
  simp only [isDynamic, if_true]
  rw [body]
  exact .members lists inner

end Outside

end AbiType

section Agreement

variable [AddressCheck] {type : AbiType} {value : Value} {topic block : Bytes}

theorem encodeTopic_eq_ok_iff_of_stored (stored : type.isValueType = false) :
    encodeTopic type value = .ok topic ↔
      ∃ content, encodeInPlace false type value = .ok content ∧ Keccak.digest content = topic := by
  rw [encodeTopic, if_neg (by simp [stored]), Outcome.bind_eq_ok_iff]
  simp only [Outcome.pure_eq_ok, Except.ok.injEq]

/-- A value has a topic exactly if it fits and all its sequences are lists and tuples. -/
theorem exists_encodeTopic_iff (wellFormed : type.WellFormed) :
    (∃ topic, encodeTopic type value = .ok topic) ↔
      AbiType.Fits Value.HasEncoding type value ∧ value.IsPlain := by
  cases single : type.isValueType with
  | true =>
      simp only [encodeTopic, if_pos single, ← AbiType.inPlace_iff_of_isValueType single]
      exact AbiType.exists_inPlace_iff type wellFormed value
  | false =>
      rw [← AbiType.exists_encodeInPlace_iff wellFormed single]
      simp only [encodeTopic_eq_ok_iff_of_stored single]
      constructor
      · rintro ⟨topic, content, encoded, _⟩
        exact ⟨content, encoded⟩
      · rintro ⟨content, encoded⟩
        exact ⟨_, content, encoded, rfl⟩

/-- What the topic of a value has in common with its block: the topic of a single word is the block,
the topic of a static array or tuple is its digest, and the topic of an array of static items is the
digest of what stands behind the offset and the length. -/
structure TopicAgrees (type : AbiType) (topic block : Bytes) : Prop where
  word : type.isValueType = true → topic = block
  static : type.isCompound = true → type.isDynamic = false → topic = Keccak.digest block
  items : ∀ item, type = .array item → item.isDynamic = false →
    topic = Keccak.digest (block.drop (2 * Bytes.wordLength))

theorem topicAgrees_of_encodeSingle (nonempty : type.isEmptyTuple = false) (plain : value.IsPlain)
    (hashed : encodeTopic type value = .ok topic) (encoded : encodeSingle type value = .ok block) :
    TopicAgrees type topic block := by
  have digest (compound : type.isCompound = true) (content : Bytes)
      (inPlace : AbiType.InPlace type value content) : topic = Keccak.digest content := by
    have outside := (AbiType.inPlace_iff_of_outside compound).mp inPlace
    have stored := AbiType.isValueType_of_isCompound compound
    have again := (encodeTopic_eq_ok_iff_of_stored stored).mpr ⟨content, outside, rfl⟩
    rw [hashed, Except.ok.injEq] at again
    exact again
  constructor
  · intro single
    rw [encodeTopic, if_pos single, encoded, Except.ok.injEq] at hashed
    exact hashed.symm
  · intro compound static
    rcases (AbiType.encodeSingle_eq_ok_iff nonempty).mp encoded with ⟨content, payload, same⟩
    rw [static] at same
    subst same
    exact digest compound _ ((AbiType.inPlace_iff_of_static static plain).mpr payload)
  · rintro item rfl static
    exact digest rfl _ (AbiType.inPlace_of_encodeSingle_array static plain encoded)

/-- **Agreement.** A value has a topic if it has a block and all its sequences are lists and tuples,
and it has a block if it has a topic, as long as a word can count the bytes of the block. (Only
shared items, hundreds of levels deep, could bring more bytes about.) Of other sequences there are
no topics. Where no offsets and lengths are needed inside, the topic comes from the block
(`TopicAgrees`). The topic of every value but a single word is the digest of the bytes of a byte
string, or of the encodings of all members in whole words, one after the other. -/
theorem encodeTopic_agrees (constructed : type.Constructed) (nonempty : type.isEmptyTuple = false)
    (value : Value) :
    ((∃ block, encodeSingle type value = .ok block) → value.IsPlain →
      ∃ topic, encodeTopic type value = .ok topic) ∧
    ((∃ topic, encodeTopic type value = .ok topic) → value.IsPlain) ∧
    ((type.isDynamic = true → AbiType.blockLength [type] [value] < 2 ^ 256) →
      (∃ topic, encodeTopic type value = .ok topic) →
        ∃ block, encodeSingle type value = .ok block) ∧
    (∀ topic, encodeTopic type value = .ok topic → type.isValueType = false →
      ∃ content, AbiType.IsHashed type value content ∧ topic = Keccak.digest content) ∧
    ∀ topic block, encodeTopic type value = .ok topic → encodeSingle type value = .ok block →
      TopicAgrees type topic block := by
  have wellFormed := constructed.wellFormed
  have plainOfTopic : (∃ topic, encodeTopic type value = .ok topic) → value.IsPlain :=
    fun hasTopic => ((exists_encodeTopic_iff wellFormed).mp hasTopic).2
  refine ⟨?_, plainOfTopic, ?_, ?_, ?_⟩
  · rintro ⟨block, encoded⟩ plain
    rw [exists_encodeTopic_iff wellFormed]
    rcases (AbiType.encodeSingle_eq_ok_iff nonempty).mp encoded with ⟨content, payload, _⟩
    exact ⟨((AbiType.exists_payload_iff type value).mp ⟨content, payload⟩).1, plain⟩
  · intro short hasTopic
    have fits := ((exists_encodeTopic_iff wellFormed).mp hasTopic).1
    have members : AbiType.AllWellFormed [type] := ⟨nonempty, wellFormed, trivial⟩
    have fitsAll : AbiType.FitsAll Value.HasEncoding [type] [value] := ⟨fits, trivial⟩
    have shortBlock : AbiType.anyDynamic [type] = true →
        AbiType.blockLength [type] [value] < 2 ^ 256 := by
      intro dynamic
      apply short
      simpa [AbiType.anyDynamic] using dynamic
    rcases AbiType.exists_block_of_blockLength members fitsAll shortBlock with ⟨block, encoded⟩
    have noneEmpty : [type].any AbiType.isEmptyTuple = false := by simpa using nonempty
    exact ⟨block, encode_eq_ok_iff.mpr ⟨rfl, noneEmpty, encoded⟩⟩
  · intro topic hashed stored
    rcases (encodeTopic_eq_ok_iff_of_stored stored).mp hashed with ⟨content, encoded, same⟩
    exact ⟨content, (AbiType.encodeInPlace_eq_ok_iff_of_outside wellFormed stored).mp encoded,
      same.symm⟩
  · intro topic block hashed
    exact topicAgrees_of_encodeSingle nonempty (plainOfTopic ⟨topic, hashed⟩) hashed

end Agreement

/-- The topic of a tuple of a text and an array is the digest of the text, completed to a word, and
of the items; that of an array of numbers is the digest of the words of the numbers. -/
theorem encodeTopic_agrees_entry :
    let numbers : AbiType := .array (.uint 8)
    let entry : AbiType := .tuple [.string, numbers]
    let items : Value := .list [.int 1, .int 2]
    let value : Value := .tuple [.text "news", items]
    entry.Constructed ∧ entry.isEmptyTuple = false ∧
      AbiType.blockLength [entry] [value] < 2 ^ 256 ∧
      (∃ topic block, encodeTopic entry value = .ok topic ∧ encodeSingle entry value = .ok block ∧
        topic = Keccak.digest
          (Bytes.padRight (Bytes.ofText "news") ++ (Bytes.word 1 ++ Bytes.word 2))) ∧
      ∃ topic block, encodeTopic numbers items = .ok topic ∧
        encodeSingle numbers items = .ok block ∧
        topic = Keccak.digest (block.drop (2 * Bytes.wordLength)) := by
  intro numbers entry items value
  have number : (AbiType.uint 8).Constructed := .uint (.int 8) rfl
  have numbersConstructed : numbers.Constructed := .array number rfl
  have constructed : entry.Constructed := by
    refine @AbiType.Constructed.tuple [.string, numbers] entry ?_ rfl
    simp only [List.forall_mem_cons, List.not_mem_nil, false_implies, implies_true, and_true]
    exact ⟨.string, numbersConstructed⟩
  have short : AbiType.blockLength [entry] [value] < 2 ^ 256 := by decide
  have shortNumbers : AbiType.blockLength [numbers] [items] < 2 ^ 256 := by decide
  have words : encodeInPlace false numbers items = .ok (Bytes.word 1 ++ Bytes.word 2) := by rfl
  have content : encodeInPlace false entry value =
      .ok (Bytes.padRight (Bytes.ofText "news") ++ (Bytes.word 1 ++ Bytes.word 2)) := by rfl
  have topicOfEntry := (encodeTopic_eq_ok_iff_of_stored rfl).mpr ⟨_, content, rfl⟩
  have topicOfNumbers := (encodeTopic_eq_ok_iff_of_stored rfl).mpr ⟨_, words, rfl⟩
  rcases encodeTopic_agrees constructed rfl value with ⟨_, _, exists_block, _, _⟩
  rcases exists_block (fun _ => short) ⟨_, topicOfEntry⟩ with ⟨block, encoded⟩
  rcases encodeTopic_agrees numbersConstructed rfl items with ⟨_, _, exists_numbers, _, agrees⟩
  rcases exists_numbers (fun _ => shortNumbers) ⟨_, topicOfNumbers⟩ with ⟨numberBlock, encodedItems⟩
  have agree := agrees _ _ topicOfNumbers encodedItems
  exact ⟨constructed, rfl, short, ⟨_, block, topicOfEntry, encoded, rfl⟩, _, numberBlock,
    topicOfNumbers, encodedItems, agree.items _ rfl rfl⟩

/-- A range of numbers has a block and no topic, and the topic of a single number is its word, which
is no digest of it. -/
theorem not_every_block_has_topic :
    let numbers : Value := .sequence "range" (some "range(0, 2)") [.int 0, .int 1]
    ((∃ block, encodeSingle (.array (.uint 8)) numbers = .ok block) ∧
      ¬∃ topic, encodeTopic (.array (.uint 8)) numbers = .ok topic) ∧
    encodeTopic (.uint 8) (.int 1) = .ok (Bytes.word 1) ∧
      Keccak.digest (Bytes.word 1) ≠ Bytes.word 1 := by
  refine ⟨⟨⟨_, rfl⟩, ?_⟩, rfl, by decide +kernel⟩
  rintro ⟨topic, hashed⟩
  cases hashed

end ContractClient
