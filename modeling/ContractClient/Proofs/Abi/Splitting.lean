import ContractClient.Proofs.Abi.Verbatim

/-!
# The parts of a list of types

The text between the parentheses of a group is separated at the commas outside all parentheses. It
has parts exactly if its parentheses are balanced (`AbiType.IsBalanced`), and the parts are the only
balanced texts without such commas that give the text back when commas join them
(`AbiType.splitTopLevel_eq_some_iff`). There is one part more than there are commas
(`AbiType.length_of_splitTopLevel`).

All of this is proved of texts behind `depth` open parentheses. A character changes their number
(`AbiType.exists_next`), and every induction below is one along the text with this number.
-/

namespace ContractClient.AbiType

/-- No start of a text closes more parentheses than it opens, and the whole closes all that it
opens. -/
def IsBalanced (text : List Char) : Prop :=
  (∀ start, start <+: text → start.count ')' ≤ start.count '(') ∧
    text.count ')' = text.count '('

/-- A text closes the parentheses that are open before it and all of its own, and no others. -/
structure ClosesFrom (depth : Nat) (text : List Char) : Prop where
  closesOpen (start : List Char) (inText : start <+: text) :
    start.count ')' ≤ depth + start.count '('
  closesAll : text.count ')' = depth + text.count '('

/-- The places of the commas of a text at which no parentheses are open, if `depth` are open before
the text. -/
def outerCommas (depth : Nat) (text : List Char) : List Nat :=
  (List.range text.length).filter fun place =>
    text[place]? = some ',' ∧ (text.take place).count ')' = depth + (text.take place).count '('

/-- A part of a list: it closes what is open before it, and has no comma that separates parts. -/
structure IsMember (depth : Nat) (part : List Char) : Prop where
  closes : ClosesFrom depth part
  unseparated : outerCommas depth part = []

variable {depth next : Nat} {character : Char} {text rest part : List Char}
  {parts members : List (List Char)}

theorem closesFrom_zero_iff : ClosesFrom 0 text ↔ IsBalanced text := by
  constructor
  · rintro ⟨closesOpen, closesAll⟩
    simp only [Nat.zero_add] at closesOpen closesAll
    exact ⟨closesOpen, closesAll⟩
  · rintro ⟨closesOpen, closesAll⟩
    constructor
    · simpa only [Nat.zero_add] using closesOpen
    · simpa only [Nat.zero_add] using closesAll

/-- After a character there is another number of open parentheses, unless it closes one that is not
open. -/
theorem exists_next (character : Char) (depth : Nat) : (character = ')' ∧ depth = 0) ∨
    ∃ next, depth + [character].count '(' = next + [character].count ')' := by
  by_cases closing : character = ')'
  · subst closing
    cases depth with
    | zero => exact Or.inl ⟨rfl, rfl⟩
    | succ depth => exact Or.inr ⟨depth, rfl⟩
  · exact Or.inr ⟨depth + [character].count '(', by simp [closing]⟩

theorem count_cons_eq (character other : Char) (text : List Char) :
    (character :: text).count other = [character].count other + text.count other := by
  rw [← List.singleton_append, List.count_append]

theorem closesFrom_nil_iff : ClosesFrom depth [] ↔ depth = 0 := by
  constructor
  · rintro ⟨_, closesAll⟩
    simpa using closesAll.symm
  · rintro rfl
    exact ⟨fun start inText => by simp [List.prefix_nil.mp inText], rfl⟩

theorem closesFrom_cons_iff
    (moved : depth + [character].count '(' = next + [character].count ')') :
    ClosesFrom depth (character :: text) ↔ ClosesFrom next text := by
  constructor
  · rintro ⟨closesOpen, closesAll⟩
    constructor
    · intro start inText
      have before := closesOpen (character :: start) ((List.prefix_cons_inj character).mpr inText)
      rw [count_cons_eq character ')', count_cons_eq character '('] at before
      omega
    · rw [count_cons_eq character ')', count_cons_eq character '('] at closesAll
      omega
  · rintro ⟨closesOpen, closesAll⟩
    constructor
    · intro start inText
      rcases List.prefix_cons_iff.mp inText with rfl | ⟨others, rfl, inRest⟩
      · exact Nat.zero_le _
      · have behind := closesOpen others inRest
        rw [count_cons_eq character ')', count_cons_eq character '(']
        omega
    · rw [count_cons_eq character ')', count_cons_eq character '(']
      omega

theorem not_closesFrom_closing : ¬ClosesFrom 0 (')' :: text) := by
  rintro ⟨closesOpen, _⟩
  have closed := closesOpen [')'] ⟨text, rfl⟩
  simp at closed

theorem length_outerCommas_cons
    (moved : depth + [character].count '(' = next + [character].count ')') :
    (outerCommas depth (character :: text)).length =
      (if character = ',' ∧ depth = 0 then 1 else 0) + (outerCommas next text).length := by
  have shifted : ∀ start : List Char,
      (character :: start).count ')' = depth + (character :: start).count '(' ↔
        start.count ')' = next + start.count '(' := by
    intro start
    rw [count_cons_eq character ')', count_cons_eq character '(']
    omega
  have first : ((character :: text)[0]? = some ',' ∧ ((character :: text).take 0).count ')' =
      depth + ((character :: text).take 0).count '(') ↔ character = ',' ∧ depth = 0 := by
    simp [eq_comm]
  rw [outerCommas, List.length_cons, List.range_succ_eq_map, List.filter_cons, List.filter_map,
    outerCommas]
  simp only [first, Function.comp_def, List.getElem?_cons_succ, List.take_succ_cons, shifted,
    decide_eq_true_eq]
  split <;> simp [Nat.add_comm]

theorem isMember_nil_iff : IsMember depth [] ↔ depth = 0 := by
  constructor
  · rintro ⟨closes, _⟩
    exact closesFrom_nil_iff.mp closes
  · intro closed
    exact ⟨closesFrom_nil_iff.mpr closed, rfl⟩

theorem isMember_cons_iff
    (moved : depth + [character].count '(' = next + [character].count ')')
    (kept : ¬(character = ',' ∧ depth = 0)) :
    IsMember depth (character :: text) ↔ IsMember next text := by
  have sameCommas : outerCommas depth (character :: text) = [] ↔ outerCommas next text = [] := by
    rw [← List.length_eq_zero_iff, length_outerCommas_cons moved, if_neg kept, Nat.zero_add,
      List.length_eq_zero_iff]
  constructor
  · rintro ⟨closes, unseparated⟩
    exact ⟨(closesFrom_cons_iff moved).mp closes, sameCommas.mp unseparated⟩
  · rintro ⟨closes, unseparated⟩
    exact ⟨(closesFrom_cons_iff moved).mpr closes, sameCommas.mpr unseparated⟩

/-- A part does not start with a character that ends it. -/
theorem not_isMember_separator : ¬IsMember 0 (',' :: text) := by
  rintro ⟨_, unseparated⟩
  have commas := @length_outerCommas_cons 0 0 ',' text rfl
  rw [unseparated] at commas
  simp at commas
  omega

theorem splitFrom_cons (moved : depth + [character].count '(' = next + [character].count ')')
    (kept : ¬(character = ',' ∧ depth = 0)) :
    splitFrom depth (character :: rest) =
      (splitFrom next rest).map fun split => (character :: split.1, split.2) := by
  by_cases opening : character = '('
  · subst opening
    have deeper : next = depth + 1 := by simpa using moved.symm
    rw [deeper, splitFrom]
    cases splitFrom (depth + 1) rest <;> rfl
  by_cases closing : character = ')'
  · subst closing
    have deeper : depth = next + 1 := by simpa using moved
    rw [deeper, splitFrom]
    cases splitFrom next rest <;> rfl
  have same : next = depth := by simpa [opening, closing] using moved.symm
  rw [same]
  by_cases comma : character = ','
  · subst comma
    cases depth with
    | zero => exact absurd ⟨rfl, rfl⟩ kept
    | succ depth => exact isKept_comma rest
  · exact isKept_of_isPlain ⟨comma, opening, closing⟩ rest

theorem splitFrom_comma :
    splitFrom 0 (',' :: rest) = (splitFrom 0 rest).map fun split => ([], split.1 :: split.2) := by
  rw [splitFrom]
  cases splitFrom 0 rest <;> rfl

theorem splitFrom_closing : splitFrom 0 (')' :: rest) = none := by
  rw [splitFrom]

/-- A text is separated exactly if its parentheses close. -/
theorem isSome_splitFrom_iff : (splitFrom depth text).isSome = true ↔ ClosesFrom depth text := by
  induction text generalizing depth with
  | nil =>
      rw [splitFrom, closesFrom_nil_iff]
      split <;> simp [*]
  | cons character text ih =>
      rcases exists_next character depth with ⟨rfl, rfl⟩ | ⟨next, moved⟩
      · rw [splitFrom_closing]
        exact iff_of_false (by simp) not_closesFrom_closing
      · rw [closesFrom_cons_iff moved, ← ih]
        by_cases separator : character = ',' ∧ depth = 0
        · rcases separator with ⟨rfl, rfl⟩
          have outside : next = 0 := by simpa using moved.symm
          rw [splitFrom_comma, Option.isSome_map, outside]
        · rw [splitFrom_cons moved separator, Option.isSome_map]

/-- The first part closes what is open before the text, the others are balanced, and there is a
comma before each of these. -/
theorem isMember_of_splitFrom (split : splitFrom depth text = some (part, parts)) :
    IsMember depth part ∧ (∀ member ∈ parts, IsMember 0 member) ∧
      parts.length = (outerCommas depth text).length := by
  induction text generalizing depth part parts with
  | nil =>
      rw [splitFrom] at split
      simp only [Option.ite_none_right_eq_some, Option.some.injEq, Prod.mk.injEq] at split
      rcases split with ⟨rfl, rfl, rfl⟩
      exact ⟨isMember_nil_iff.mpr rfl, List.forall_mem_nil _, rfl⟩
  | cons character text ih =>
      rcases exists_next character depth with ⟨rfl, rfl⟩ | ⟨next, moved⟩
      · rw [splitFrom_closing] at split
        cases split
      rw [length_outerCommas_cons moved]
      by_cases separator : character = ',' ∧ depth = 0
      · rcases separator with ⟨rfl, rfl⟩
        have outside : next = 0 := by simpa using moved.symm
        rw [splitFrom_comma] at split
        rcases Option.map_eq_some_iff.mp split with ⟨⟨first, others⟩, inner, same⟩
        simp only [Prod.mk.injEq] at same
        rcases same with ⟨rfl, rfl⟩
        rcases ih inner with ⟨memberFirst, membersOthers, count⟩
        refine ⟨isMember_nil_iff.mpr rfl, List.forall_mem_cons.mpr ⟨memberFirst, membersOthers⟩, ?_⟩
        rw [List.length_cons, count, outside, if_pos ⟨rfl, rfl⟩, Nat.add_comm]
      · rw [splitFrom_cons moved separator] at split
        rcases Option.map_eq_some_iff.mp split with ⟨⟨first, others⟩, inner, same⟩
        simp only [Prod.mk.injEq] at same
        rcases same with ⟨rfl, rfl⟩
        rcases ih inner with ⟨memberFirst, membersOthers, count⟩
        refine ⟨(isMember_cons_iff moved separator).mpr memberFirst, membersOthers, ?_⟩
        rw [if_neg separator, Nat.zero_add, count]

/-- A part is not separated, whatever comes behind it. -/
theorem splitFrom_append (member : IsMember depth part) (rest : List Char) :
    splitFrom depth (part ++ rest) =
      (splitFrom 0 rest).map fun split => (part ++ split.1, split.2) := by
  induction part generalizing depth with
  | nil =>
      rw [isMember_nil_iff.mp member, List.nil_append]
      exact Option.map_id'.symm
  | cons character part ih =>
      rcases exists_next character depth with ⟨rfl, rfl⟩ | ⟨next, moved⟩
      · exact absurd member.closes not_closesFrom_closing
      have kept : ¬(character = ',' ∧ depth = 0) := by
        rintro ⟨rfl, rfl⟩
        exact not_isMember_separator member
      rw [List.cons_append, splitFrom_cons moved kept,
        ih ((isMember_cons_iff moved kept).mp member), Option.map_map]
      rfl

theorem splitFrom_intercalate (member : IsMember 0 part)
    (others : ∀ member ∈ parts, IsMember 0 member) :
    splitFrom 0 ([','].intercalate (part :: parts)) = some (part, parts) := by
  induction parts generalizing part with
  | nil =>
      have alone := splitFrom_append member []
      rw [List.append_nil, splitFrom, if_pos rfl, Option.map_some, List.append_nil] at alone
      rw [List.intercalate_singleton, alone]
  | cons second parts ih =>
      rw [List.forall_mem_cons] at others
      rw [List.intercalate_cons_cons, List.append_assoc, splitFrom_append member,
        List.singleton_append, splitFrom_comma, ih others.1 others.2, Option.map_some,
        Option.map_some, List.append_nil]

theorem splitTopLevel_eq_none_iff : splitTopLevel text = none ↔ ¬IsBalanced text := by
  rw [splitTopLevel, Option.map_eq_none_iff, ← closesFrom_zero_iff, ← isSome_splitFrom_iff,
    Option.not_isSome_iff_eq_none]

/-- A text has the parts from which commas join it. -/
theorem splitTopLevel_eq_some_iff : splitTopLevel text = some parts ↔
    parts ≠ [] ∧ text = [','].intercalate parts ∧ ∀ part ∈ parts, IsMember 0 part := by
  constructor
  · intro split
    have joined := eq_intercalate_of_splitTopLevel split
    simp only [splitTopLevel, Option.map_eq_some_iff, Prod.exists] at split
    rcases split with ⟨first, others, inner, rfl⟩
    rcases isMember_of_splitFrom inner with ⟨memberFirst, membersOthers, _⟩
    exact ⟨List.cons_ne_nil first others, joined,
      List.forall_mem_cons.mpr ⟨memberFirst, membersOthers⟩⟩
  · rintro ⟨nonempty, rfl, each⟩
    cases parts with
    | nil => exact absurd rfl nonempty
    | cons first others =>
        rw [List.forall_mem_cons] at each
        rw [splitTopLevel, splitFrom_intercalate each.1 each.2, Option.map_some]

theorem length_of_splitTopLevel (split : splitTopLevel text = some parts) :
    parts.length = (outerCommas 0 text).length + 1 := by
  simp only [splitTopLevel, Option.map_eq_some_iff, Prod.exists] at split
  rcases split with ⟨first, others, inner, rfl⟩
  rw [List.length_cons, (isMember_of_splitFrom inner).2.2]

/-- A group whose inner text is not balanced is refused under this text. -/
theorem ofText_of_not_isBalanced (unbalanced : ¬IsBalanced text)
    (tupleType : String → Outcome AbiType) :
    ofText tupleType ('(' :: (text ++ [')'])) =
      malformed (String.ofList text) "unbalanced parentheses" := by
  have solid : Text.isBlank '(' = false ∧ Text.isBlank ')' = false := by decide
  have stripped : Text.strip ('(' :: (text ++ [')'])) = '(' :: (text ++ [')']) := by
    simp [Text.strip, Text.stripRight, solid]
  have noSuffix : arraySuffix? ('(' :: (text ++ [')'])) = none :=
    @arraySuffix?_eq_none ('(' :: text) ')' (by decide)
  have nonempty : text.isEmpty = false := by
    cases text with
    | nil => exact absurd (closesFrom_zero_iff.mp (closesFrom_nil_iff.mpr rfl)) unbalanced
    | cons character text => rfl
  rw [ofText_eq_of_group stripped noSuffix groupContent?_group,
    splitTopLevel_eq_none_iff.mpr unbalanced]
  simp [nonempty]

/-- A text has no parts exactly if its parentheses are not balanced, and then a group around it is
refused. Otherwise commas join its parts to the text again, each of them is balanced and has no
comma outside parentheses, and no other texts are like that; and there is one part more than there
are such commas in the text. -/
theorem splitTopLevel_separates (text : List Char) :
    (splitTopLevel text = none ↔ ¬IsBalanced text) ∧
    (∀ parts, splitTopLevel text = some parts ↔ parts ≠ [] ∧ text = [','].intercalate parts ∧
      ∀ part ∈ parts, IsBalanced part ∧ outerCommas 0 part = []) ∧
    (∀ parts, splitTopLevel text = some parts →
      parts.length = (outerCommas 0 text).length + 1) ∧
    (¬IsBalanced text → ∀ tupleType, ofText tupleType ('(' :: (text ++ [')'])) =
      malformed (String.ofList text) "unbalanced parentheses") := by
  have isMember_iff : ∀ part, IsMember 0 part ↔ IsBalanced part ∧ outerCommas 0 part = [] := by
    intro part
    rw [← closesFrom_zero_iff]
    exact ⟨fun member => ⟨member.closes, member.unseparated⟩, fun both => ⟨both.1, both.2⟩⟩
  refine ⟨splitTopLevel_eq_none_iff, fun parts => ?_, fun _ => length_of_splitTopLevel,
    ofText_of_not_isBalanced⟩
  simp only [splitTopLevel_eq_some_iff, isMember_iff]

/-- The separator inside the parentheses of the second part is none of the list. -/
example : splitTopLevel "a,(b,c)".toList = some ["a".toList, "(b,c)".toList] := by decide

end ContractClient.AbiType
