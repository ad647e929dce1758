import ContractClient.Proofs.Abi.RoundTrip
import ContractClient.Proofs.Abi.Size

/-!
# Values inside others

`AbiType.Holds` says where the payload of a value stands in the payload of another one that holds
it, at any depth. What is refused in its place is refused in the whole
(`AbiType.isInside_of_holds`): all other values are read as before, so that nothing else can go
wrong first.
-/

namespace ContractClient

namespace AbiType

variable {type leaf item : AbiType} {types before after : List AbiType} {value found : Value}
  {values front back : List Value} {content inner block : Bytes} {position : Nat}

/-- A payload is refused wherever it stands. -/
def IsRefusedAs (type : AbiType) (content : Bytes) (issue : DecodeIssue) : Prop :=
  ∀ data position, StandsAt content data position → decodeAt data type position = .error issue

/-- Where the payload of a member stands in its block: behind the heads of the members before it, or
behind all heads and the tails of those members. -/
def memberPosition (before : List AbiType) (front : List Value) (type : AbiType)
    (after : List AbiType) : Nat :=
  if type.isDynamic then blockLength before front + ((type :: after).map headSize).sum
  else (before.map headSize).sum

/-- The payload of a value stands at a position of the payload of a value that holds it. -/
inductive Holds (leaf : AbiType) (found : Value) : AbiType → Value → Nat → Prop where
  | self : Holds leaf found leaf found 0
  | fixedArray {item : AbiType} {value entry : Value} {front back : List Value} {position : Nat}
      (items : value.items? = some (front ++ entry :: back))
      (inner : Holds leaf found item entry position) :
      Holds leaf found (.fixedArray item (front ++ entry :: back).length) value
        (memberPosition (List.replicate front.length item) front item
          (List.replicate back.length item) + position)
  | array {item : AbiType} {value entry : Value} {front back : List Value} {position : Nat}
      (items : value.items? = some (front ++ entry :: back))
      (inner : Holds leaf found item entry position) :
      Holds leaf found (.array item) value
        (Bytes.wordLength + (memberPosition (List.replicate front.length item) front item
          (List.replicate back.length item) + position))
  | tuple {before after : List AbiType} {type : AbiType} {value entry : Value}
      {front back : List Value} {position : Nat}
      (items : value.items? = some (front ++ entry :: back))
      (count : before.length = front.length)
      (inner : Holds leaf found type entry position) :
      Holds leaf found (.tuple (before ++ type :: after)) value
        (memberPosition before front type after + position)

section Blocks

theorem headLength_append (front back : List Part) :
    headLength (front ++ back) = headLength front + headLength back := by
  induction front with
  | nil => simp [headLength]
  | cons part front ih => rw [List.cons_append, headLength, headLength, ih, Nat.add_assoc]

theorem heads_append (offset : Nat) (front back : List Part) :
    heads offset (front ++ back) =
      heads offset front ++ heads (offset + tailLength front) back := by
  induction front generalizing offset with
  | nil => rfl
  | cons part front ih =>
      cases dynamic : part.dynamic <;>
        simp [heads, tailLength, dynamic, ih, Nat.add_assoc]

theorem tails_append (front back : List Part) :
    tails (front ++ back) = tails front ++ tails back := by
  induction front with
  | nil => rfl
  | cons part front ih => cases dynamic : part.dynamic <;> simp [tails, dynamic, ih]

/-- A payload stands at one position of a layout, and the bytes around it do not depend on it. -/
theorem exists_layout_eq (before after : List Part) (dynamic : Bool) (length : Nat) :
    ∃ left right, (left.length = if dynamic then
        headLength before + tailLength before + (Bytes.wordLength + headLength after)
      else headLength before) ∧
      ∀ content, content.length = length →
        layout (before ++ ⟨dynamic, content⟩ :: after) = left ++ (content ++ right) := by
  cases dynamic with
  | true =>
      let total := headLength before + (Bytes.wordLength + headLength after)
      refine ⟨heads total before ++ (Bytes.word (total + tailLength before) ++
        (heads (total + tailLength before + length) after ++ tails before)), tails after, ?_, ?_⟩
      · simp only [List.length_append, length_heads, length_tails, Bytes.length_word, if_true]
        omega
      · rintro content rfl
        simp [layout, headLength_append, heads_append, tails_append, headLength, heads, tails,
          total]
  | false =>
      let total := headLength before + (length + headLength after)
      refine ⟨heads total before,
        heads (total + tailLength before) after ++ (tails before ++ tails after), by simp, ?_⟩
      rintro content rfl
      simp [layout, headLength_append, heads_append, tails_append, headLength, heads, tails, total]

theorem offsetsFit_replace {other : Bytes} {dynamic : Bool} {before after : List Part}
    (sameLength : other.length = content.length) (offset : Nat) :
    offsetsFit offset (before ++ ⟨dynamic, other⟩ :: after) =
      offsetsFit offset (before ++ ⟨dynamic, content⟩ :: after) := by
  induction before generalizing offset with
  | nil => simp [offsetsFit, sameLength]
  | cons part before ih => simp [offsetsFit, ih]

theorem parts?_append_cons_inv {parts : List Part} (count : before.length = front.length)
    (encoded : parts? (before ++ type :: after) (front ++ value :: back) = some parts) :
    ∃ firsts content lasts, parts? before front = some firsts ∧
      payload? type value = some content ∧ parts? after back = some lasts ∧
        parts = firsts ++ ⟨type.isDynamic, content⟩ :: lasts := by
  induction before generalizing front parts with
  | nil =>
      rw [List.length_nil, eq_comm, List.length_eq_zero_iff] at count
      subst count
      rcases parts?_cons_eq_some_iff.mp encoded with
        ⟨_, _, content, lasts, same, payload, encodedRest, rfl⟩
      cases same
      exact ⟨[], content, lasts, rfl, payload, encodedRest, rfl⟩
  | cons first before ih =>
      match front, count with
      | entry :: front, count =>
          rcases parts?_cons_eq_some_iff.mp encoded with
            ⟨_, _, firstContent, parts, same, firstPayload, encodedRest, rfl⟩
          cases same
          rcases ih (by simpa using count) encodedRest with
            ⟨firsts, content, lasts, encodedFirsts, payload, encodedLasts, rfl⟩
          exact ⟨_, content, lasts, parts?_cons_eq_some_iff.mpr
            ⟨entry, front, firstContent, firsts, rfl, firstPayload, encodedFirsts, rfl⟩, payload,
            encodedLasts, rfl⟩

theorem ReadsEach.append {firsts lasts : List Part} {results others : List (Decoded Value)}
    (first : ReadsEach before firsts results) (last : ReadsEach after lasts others) :
    ReadsEach (before ++ after) (firsts ++ lasts) (results ++ others) := by
  induction first with
  | nil => exact last
  | cons reads size width _ ih => exact .cons reads size width ih

theorem EndsAs.eq_error {raws others : List Value} {issue : DecodeIssue}
    {ending : Decoded (List Value)}
    (ends : EndsAs (raws.map .ok ++ .error issue :: others.map .ok) ending) :
    ending = .error issue := by
  rcases ends with ⟨all, same, _⟩ | ⟨other, member, found⟩
  · have absent : .error issue ∈ (all.map .ok : List (Decoded Value)) := by simp [← same]
    simp at absent
  · have alike : other = issue := by simpa using member
    rw [found, alike]

/-- What is refused in the place of a member of a block is refused in the block. -/
theorem exists_context_of_block? (wellFormed : AllWellFormed (before ++ type :: after))
    (count : before.length = front.length)
    (encoded : block? (before ++ type :: after) (front ++ value :: back) = some block) :
    ∃ content left right, payload? type value = some content ∧
      block = left ++ (content ++ right) ∧ left.length = memberPosition before front type after ∧
        ∀ other issue, other.length = content.length → IsRefusedAs type other issue →
          ∀ data start, StandsAt (left ++ (other ++ right)) data start →
            decodeBlockAt data (before ++ type :: after) start = .error issue := by
  have parts := allWellFormed_iff.mp wellFormed
  have firstsWellFormed : AllWellFormed before :=
    allWellFormed_iff.mpr fun type member => parts type (by simp [member])
  have lastsWellFormed : AllWellFormed after :=
    allWellFormed_iff.mpr fun type member => parts type (by simp [member])
  rcases parts type (by simp) with ⟨typeNonempty, typeWellFormed⟩
  rcases block?_eq_some_iff.mp encoded with ⟨_, encodedParts, fits, rfl⟩
  rcases parts?_append_cons_inv count encodedParts with
    ⟨firsts, content, lasts, encodedFirsts, payload, encodedLasts, rfl⟩
  rcases exists_layout_eq firsts lasts type.isDynamic content.length with
    ⟨left, right, place, layouts⟩
  refine ⟨content, left, right, payload, layouts content rfl, ?_, ?_⟩
  · rw [place, memberPosition, length_parts firstsWellFormed encodedFirsts,
      headLength_eq_sum firstsWellFormed encodedFirsts,
      headLength_eq_sum lastsWellFormed encodedLasts]
    split
    · next dynamic => rw [List.map_cons, List.sum_cons, headSize_of_isDynamic dynamic]
    · rfl
  · intro other issue sameLength refused data start stands
    have readBack {types : List AbiType} (wellFormed : AllWellFormed types) : AllReadBack types :=
      fun type member => isReadAs_payload (allWellFormed_iff.mp wellFormed type member).2
    rcases readsEach_of_parts? firstsWellFormed (readBack firstsWellFormed) encodedFirsts with
      ⟨raws, readsFirsts, _⟩
    rcases readsEach_of_parts? lastsWellFormed (readBack lastsWellFormed) encodedLasts with
      ⟨others, readsLasts, _⟩
    have width := wordLength_le_length_payload typeWellFormed typeNonempty payload
    have positive : 0 < Bytes.wordLength := by decide
    have each : ReadsEach (before ++ type :: after) (firsts ++ ⟨type.isDynamic, other⟩ :: lasts)
        (raws.map .ok ++ .error issue :: others.map .ok) := by
      refine readsFirsts.append (.cons refused ?_ (by omega) readsLasts)
      exact fun static => sameLength ▸ length_payload_eq_headSize typeWellFormed static payload
    have sameHeads : headLength (firsts ++ ⟨type.isDynamic, other⟩ :: lasts) =
        headLength (firsts ++ ⟨type.isDynamic, content⟩ :: lasts) := by
      simp [headLength_append, headLength, sameLength]
    rw [← layouts other sameLength] at stands
    rw [← offsetsFit_replace sameLength, ← sameHeads] at fits
    exact (decodeBlockAt_of_readsEach wellFormed each stands fits).eq_error

end Blocks

/-- A payload stands at a position of another one, and what is refused in its place is refused in
the whole. -/
def IsInside (leaf : AbiType) (inner : Bytes) (type : AbiType) (content : Bytes)
    (position : Nat) : Prop :=
  ∃ left right, content = left ++ (inner ++ right) ∧ left.length = position ∧
    ∀ other issue, other.length = inner.length → IsRefusedAs leaf other issue →
      IsRefusedAs type (left ++ (other ++ right)) issue

section Inside

theorem IsInside.refl (type : AbiType) (content : Bytes) : IsInside type content type content 0 :=
  ⟨[], [], by simp, rfl, fun _ _ _ refused => by simpa using refused⟩

theorem IsInside.trans {middle : AbiType} {middleContent : Bytes} {middlePosition : Nat}
    (outer : IsInside middle middleContent type content middlePosition)
    (inside : IsInside leaf inner middle middleContent position) :
    IsInside leaf inner type content (middlePosition + position) := by
  rcases outer with ⟨left, right, rfl, rfl, outerRefuses⟩
  rcases inside with ⟨innerLeft, innerRight, rfl, rfl, innerRefuses⟩
  refine ⟨left ++ innerLeft, innerRight ++ right, by simp, by simp, ?_⟩
  intro other issue sameLength refused
  have whole := outerRefuses (innerLeft ++ (other ++ innerRight)) issue (by simp [sameLength])
    (innerRefuses other issue sameLength refused)
  simpa using whole

theorem isInside_tuple (wellFormed : AllWellFormed (before ++ type :: after))
    (count : before.length = front.length) (items : value.items? = some (front ++ found :: back))
    (payload : payload? (.tuple (before ++ type :: after)) value = some content) :
    ∃ inner, payload? type found = some inner ∧
      IsInside type inner (.tuple (before ++ type :: after)) content
        (memberPosition before front type after) := by
  rcases payload?_tuple_eq_some_iff.mp payload with ⟨_, same, encoded⟩
  cases items.symm.trans same
  rcases exists_context_of_block? wellFormed count encoded with
    ⟨inner, left, right, memberPayload, rfl, place, refuses⟩
  refine ⟨inner, memberPayload, left, right, rfl, place, ?_⟩
  intro other issue sameLength refused data start stands
  rw [decodeAt_tuple, refuses other issue sameLength refused data start stands]
  rfl

/-- What is refused in the place of an item is refused in the block of the items. -/
theorem exists_context_of_items (wellFormed : item.WellFormed)
    (nonempty : item.isEmptyTuple = false)
    (encoded : block? (List.replicate (front ++ found :: back).length item)
      (front ++ found :: back) = some block) :
    ∃ inner left right, payload? item found = some inner ∧ block = left ++ (inner ++ right) ∧
      left.length = memberPosition (List.replicate front.length item) front item
        (List.replicate back.length item) ∧
      ∀ other issue, other.length = inner.length → IsRefusedAs item other issue →
        ∀ data start, StandsAt (left ++ (other ++ right)) data start →
          decodeBlockAt data (List.replicate (front ++ found :: back).length item) start =
            .error issue := by
  have split : List.replicate (front ++ found :: back).length item =
      List.replicate front.length item ++ item :: List.replicate back.length item := by
    rw [List.length_append, List.length_cons, ← List.replicate_append_replicate,
      List.replicate_succ]
  have allWellFormed : AllWellFormed (List.replicate (front ++ found :: back).length item) :=
    allWellFormed_replicate nonempty wellFormed
  rw [split] at encoded allWellFormed ⊢
  exact exists_context_of_block? allWellFormed List.length_replicate encoded

theorem isInside_fixedArray
    (wellFormed : (AbiType.fixedArray item (front ++ found :: back).length).WellFormed)
    (items : value.items? = some (front ++ found :: back))
    (payload : payload? (.fixedArray item (front ++ found :: back).length) value = some content) :
    ∃ inner, payload? item found = some inner ∧
      IsInside item inner (.fixedArray item (front ++ found :: back).length) content
        (memberPosition (List.replicate front.length item) front item
          (List.replicate back.length item)) := by
  rcases wellFormed with ⟨_, itemNonempty, itemWellFormed⟩
  rcases payload?_fixedArray_eq_some_iff.mp payload with ⟨_, same, _, encoded⟩
  cases items.symm.trans same
  rcases exists_context_of_items itemWellFormed itemNonempty encoded with
    ⟨inner, left, right, itemPayload, rfl, place, refuses⟩
  refine ⟨inner, itemPayload, left, right, rfl, place, ?_⟩
  intro other issue sameLength refused data start stands
  rw [decodeAt, decodeItems_eq_decodeBlockAt,
    refuses other issue sameLength refused data start stands]
  rfl

theorem isInside_array (wellFormed : (AbiType.array item).WellFormed)
    (items : value.items? = some (front ++ found :: back))
    (payload : payload? (.array item) value = some content) :
    ∃ inner, payload? item found = some inner ∧
      IsInside item inner (.array item) content
        (Bytes.wordLength + memberPosition (List.replicate front.length item) front item
          (List.replicate back.length item)) := by
  rcases wellFormed with ⟨itemNonempty, itemWellFormed⟩
  rcases payload?_array_eq_some_iff.mp payload with ⟨_, body, same, fits, encoded, rfl⟩
  cases items.symm.trans same
  rcases exists_context_of_items itemWellFormed itemNonempty encoded with
    ⟨inner, left, right, itemPayload, rfl, place, refuses⟩
  refine ⟨inner, itemPayload, Bytes.word (front ++ found :: back).length ++ left, right,
    by simp, by rw [List.length_append, Bytes.length_word, place], ?_⟩
  intro other issue sameLength refused data start stands
  rw [List.append_assoc] at stands
  have bodyStands := stands.right
  rw [Bytes.length_word] at bodyStands
  rw [decodeAt, stands.left.readNat fits, Outcome.ok_bind, decodeItems_eq_decodeBlockAt,
    refuses other issue sameLength refused _ _ bodyStands]
  rfl

/-- A value that is held by another one has a payload inside the payload of that one. -/
theorem isInside_of_holds (wellFormed : type.WellFormed)
    (holds : Holds leaf found type value position)
    (payload : payload? type value = some content) :
    ∃ inner, payload? leaf found = some inner ∧ IsInside leaf inner type content position := by
  induction holds generalizing content with
  | self => exact ⟨content, payload, .refl _ _⟩
  | fixedArray items _ ih =>
      rcases isInside_fixedArray wellFormed items payload with ⟨middle, itemPayload, outer⟩
      rcases ih wellFormed.2.2 itemPayload with ⟨inner, leafPayload, inside⟩
      exact ⟨inner, leafPayload, outer.trans inside⟩
  | array items _ ih =>
      rcases isInside_array wellFormed items payload with ⟨middle, itemPayload, outer⟩
      rcases ih wellFormed.2 itemPayload with ⟨inner, leafPayload, inside⟩
      rw [← Nat.add_assoc]
      exact ⟨inner, leafPayload, outer.trans inside⟩
  | @tuple before after type _ _ _ _ _ items count _ ih =>
      rcases isInside_tuple wellFormed count items payload with ⟨middle, memberPayload, outer⟩
      have memberWellFormed := (allWellFormed_iff.mp wellFormed type (by simp)).2
      rcases ih memberWellFormed memberPayload with ⟨inner, leafPayload, inside⟩
      exact ⟨inner, leafPayload, outer.trans inside⟩

theorem wellFormed_of_holds (wellFormed : type.WellFormed)
    (holds : Holds leaf found type value position) : leaf.WellFormed := by
  induction holds with
  | self => exact wellFormed
  | fixedArray _ _ ih => exact ih wellFormed.2.2
  | array _ _ ih => exact ih wellFormed.2
  | @tuple before after type _ _ _ _ _ _ _ _ ih =>
      exact ih (allWellFormed_iff.mp wellFormed type (by simp)).2

end Inside

end AbiType

end ContractClient
