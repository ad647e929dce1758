import ContractClient.Abi.Type

/-!
# Reading types

`AbiType.ofText` reads the text of a type as it stands in interface documents: elementary names,
array suffixes, and parenthesised lists of types. The word `tuple` stands for the tuple of the
components that the document lists beside it; `AbiType.ofDocument` resolves these components, at any
depth.

`splitTopLevel` separates the members of a list at the commas that no parentheses enclose.
-/

namespace ContractClient.AbiType

/-- Separates a text at the commas outside parentheses, where `depth` parentheses are open at its
start: the part up to the first such comma, and the other parts. A text whose parentheses do not
match has no parts. -/
def splitFrom : (depth : Nat) → List Char → Option (List Char × List (List Char))
  | depth, [] => if depth = 0 then some ([], []) else none
  | 0, ',' :: rest => do
    let (part, parts) ← splitFrom 0 rest
    some ([], part :: parts)
  | depth, '(' :: rest => do
    let (part, parts) ← splitFrom (depth + 1) rest
    some ('(' :: part, parts)
  | 0, ')' :: _ => none
  | depth + 1, ')' :: rest => do
    let (part, parts) ← splitFrom depth rest
    some (')' :: part, parts)
  | depth, character :: rest => do
    let (part, parts) ← splitFrom depth rest
    some (character :: part, parts)

/-- The members of a list: the parts of its text between the commas outside parentheses. -/
def splitTopLevel (characters : List Char) : Option (List (List Char)) :=
  (splitFrom 0 characters).map fun (part, parts) => part :: parts

theorem length_le_of_splitFrom {depth : Nat} {characters : List Char} {part : List Char}
    {parts : List (List Char)} (split : splitFrom depth characters = some (part, parts)) :
    ∀ member ∈ part :: parts, member.length ≤ characters.length := by
  fun_induction splitFrom depth characters generalizing part parts with
  | case1 =>
    simp only [Option.some.injEq, Prod.mk.injEq] at split
    simp [← split.1, ← split.2]
  | case2 => simp at split
  | case3 rest ih =>
    simp only [Option.bind_eq_bind, Option.bind_eq_some_iff, Option.some.injEq, Prod.mk.injEq,
      Prod.exists] at split
    obtain ⟨first, others, inner, rfl, rfl⟩ := split
    intro member membership
    rcases List.mem_cons.mp membership with rfl | membership
    · simp
    · exact Nat.le_succ_of_le (ih inner member membership)
  | case4 depth rest ih =>
    simp only [Option.bind_eq_bind, Option.bind_eq_some_iff, Option.some.injEq, Prod.mk.injEq,
      Prod.exists] at split
    obtain ⟨first, others, inner, rfl, rfl⟩ := split
    intro member membership
    rcases List.mem_cons.mp membership with rfl | membership
    · simpa using ih inner first (by simp)
    · exact Nat.le_succ_of_le (ih inner member (by simp [membership]))
  | case5 => simp at split
  | case6 depth rest ih =>
    simp only [Option.bind_eq_bind, Option.bind_eq_some_iff, Option.some.injEq, Prod.mk.injEq,
      Prod.exists] at split
    obtain ⟨first, others, inner, rfl, rfl⟩ := split
    intro member membership
    rcases List.mem_cons.mp membership with rfl | membership
    · simpa using ih inner first (by simp)
    · exact Nat.le_succ_of_le (ih inner member (by simp [membership]))
  | case7 depth character rest _ _ _ _ ih =>
    simp only [Option.bind_eq_bind, Option.bind_eq_some_iff, Option.some.injEq, Prod.mk.injEq,
      Prod.exists] at split
    obtain ⟨first, others, inner, rfl, rfl⟩ := split
    intro member membership
    rcases List.mem_cons.mp membership with rfl | membership
    · simpa using ih inner first (by simp)
    · exact Nat.le_succ_of_le (ih inner member (by simp [membership]))

theorem length_le_of_mem_splitTopLevel {characters member : List Char}
    {parts : List (List Char)} (split : splitTopLevel characters = some parts)
    (membership : member ∈ parts) : member.length ≤ characters.length := by
  simp only [splitTopLevel, Option.map_eq_some_iff, Prod.exists] at split
  obtain ⟨part, others, inner, rfl⟩ := split
  exact length_le_of_splitFrom inner member membership

/-- The item text and the digits of the length of a text that ends in an array suffix. -/
def arraySuffix? (characters : List Char) : Option (List Char × List Char) :=
  match characters.reverse with
  | ']' :: rest =>
    match rest.dropWhile Text.isDigit with
    | '[' :: base =>
      if base.contains '\n' then none
      else some (base.reverse, (rest.takeWhile Text.isDigit).reverse)
    | _ => none
  | _ => none

theorem length_lt_of_arraySuffix? {characters base digits : List Char}
    (suffix : arraySuffix? characters = some (base, digits)) :
    base.length < characters.length := by
  unfold arraySuffix? at suffix
  split at suffix
  · next rest reversed =>
    split at suffix
    · next inner dropped =>
      split at suffix
      · simp at suffix
      · simp only [Option.some.injEq, Prod.mk.injEq] at suffix
        have total : characters.length = rest.length + 1 := by
          rw [← List.length_reverse, reversed, List.length_cons]
        have shorter := (List.dropWhile_sublist (p := Text.isDigit) (l := rest)).length_le
        rw [dropped, List.length_cons] at shorter
        rw [← suffix.1, List.length_reverse]
        omega
    · simp at suffix
  · simp at suffix

/-- The text between the parentheses that open and close a text. -/
def groupContent? (characters : List Char) : Option (List Char) :=
  match characters with
  | '(' :: rest => if rest.getLast? = some ')' then some rest.dropLast else none
  | _ => none

theorem length_lt_of_groupContent? {characters inner : List Char}
    (group : groupContent? characters = some inner) : inner.length < characters.length := by
  unfold groupContent? at group
  split at group
  · split at group
    · simp only [Option.some.injEq] at group
      rw [← group, List.length_dropLast, List.length_cons]
      omega
    · simp at group
  · simp at group

theorem length_strip_le (characters : List Char) :
    (Text.strip characters).length ≤ characters.length := by
  unfold Text.strip Text.stripRight
  have first := (List.dropWhile_sublist (p := Text.isBlank) (l := characters)).length_le
  have second := (List.dropWhile_sublist (p := Text.isBlank)
    (l := (characters.dropWhile Text.isBlank).reverse)).length_le
  simp only [List.length_reverse] at second ⊢
  omega

/-- The number that decimal digits write. More digits than are converted are no number. -/
def numberOf (digits : List Char) : Outcome Value :=
  match Text.integer? digits with
  | some number => .ok (.int number)
  | none => Outcome.condition .badValue

/-- What follows a word at the start of a text, if it consists of decimal digits. -/
def digitsAfter? (word : String) (characters : List Char) : Option (List Char) :=
  if word.toList.isPrefixOf characters then
    let rest := characters.drop word.length
    if rest.all Text.isDigit then some rest else none
  else none

/-- Reads the name of an elementary type; a missing width is 256. -/
def elementary (source : String) (text : List Char) : Outcome AbiType :=
  if text = "address".toList then .ok .address
  else if text = "bool".toList then .ok .bool
  else if text = "string".toList then .ok .string
  else if text = "bytes".toList then .ok .bytes
  else
    match digitsAfter? "uint" text, digitsAfter? "int" text, digitsAfter? "bytes" text with
    | some [], _, _ => uintOf (.int 256)
    | some digits, _, _ => do uintOf (← numberOf digits)
    | none, some [], _ => intOf (.int 256)
    | none, some digits, _ => do intOf (← numberOf digits)
    | none, none, some digits => do fixedBytesOf (← numberOf digits)
    | none, none, none => malformed source "unknown or unsupported Solidity type"

/-- Refuses the word `tuple` where no components are listed. -/
def withoutComponents (source : String) : Outcome AbiType :=
  malformed source "tuple type requires components"

/-- Reads the text of a type. The first argument says what the word `tuple` stands for. -/
def ofText (tupleType : String → Outcome AbiType) (characters : List Char) : Outcome AbiType :=
  let text := Text.strip characters
  let source := String.ofList characters
  if text.isEmpty then malformed source "empty type"
  else
    match _suffix : arraySuffix? text with
    | some (base, digits) => do
      let item ← ofText tupleType base
      if digits.isEmpty then arrayOf item
      else fixedArrayOf item (← numberOf digits)
    | none =>
      if text = "tuple".toList then tupleType source
      else
        match _group : groupContent? text with
        | some inner =>
          if inner.isEmpty then .ok (.tuple [])
          else
            match _parts : splitTopLevel inner with
            | none => malformed (String.ofList inner) "unbalanced parentheses"
            | some members => do
              let types ← members.attach.mapM fun member => ofText withoutComponents member.val
              tupleOf types
        | none => elementary source text
termination_by characters.length
decreasing_by
  · have shorter := length_lt_of_arraySuffix? _suffix
    have stripped : text.length ≤ characters.length := length_strip_le characters
    omega
  · have member_le := length_le_of_mem_splitTopLevel _parts member.property
    have shorter := length_lt_of_groupContent? _group
    have stripped : text.length ≤ characters.length := length_strip_le characters
    omega

theorem sizeOf_lt_of_get? {entries : Dict} {key : String} {value : Value}
    (found : Dict.get? entries key = some value) : sizeOf value < sizeOf entries := by
  unfold Dict.get? at found
  simp only [Option.map_eq_some_iff] at found
  obtain ⟨entry, membership, rfl⟩ := found
  have smaller := List.sizeOf_lt_of_mem (List.mem_of_find?_eq_some membership)
  rcases entry with ⟨entryKey, entryValue⟩
  simp only [Prod.mk.sizeOf_spec] at smaller ⊢
  omega

mutual

/-- Reads a type as interface documents give it: its text, and the components that the word `tuple`
stands for. -/
def ofDocument (typeText components : Value) : Outcome AbiType :=
  match typeText with
  | .text _ | .brokenText _ =>
    ofText (fun source =>
      match components with
      | .null => withoutComponents source
      | .list items => do
        let types ← items.attach.mapM fun item => ofComponent item.val
        tupleOf types
      | .tuple items => do
        let types ← items.attach.mapM fun item => ofComponent item.val
        tupleOf types
      | .sequence _ _ items => do
        let types ← items.attach.mapM fun item => ofComponent item.val
        tupleOf types
      | other => do
        match ← other.elements with
        | [] => tupleOf []
        | _ => Outcome.condition .missingMember) typeText.display.toList
  | other => malformed other.render "type must be a string"
termination_by (sizeOf components, 0)
decreasing_by
  all_goals
    have smaller := List.sizeOf_lt_of_mem item.property
    apply Prod.Lex.left
    simp only [Value.list.sizeOf_spec, Value.tuple.sizeOf_spec, Value.sequence.sizeOf_spec]
    omega

/-- Reads one component: a dictionary with a type, and perhaps with components of its own. -/
def ofComponent (component : Value) : Outcome AbiType :=
  match component with
  | .dict entries =>
    let typeText := (Dict.get? entries "type").getD (.text "")
    match _found : Dict.get? entries "components" with
    | some nested => ofDocument typeText nested
    | none => ofDocument typeText .null
  | _ => Outcome.condition .missingMember
termination_by (sizeOf component, 1)
decreasing_by
  · have smaller := sizeOf_lt_of_get? _found
    apply Prod.Lex.left
    simp only [Value.dict.sizeOf_spec]
    omega
  · have positive : 0 < sizeOf entries := by
      cases entries with
      | nil => decide
      | cons entry rest => rw [List.cons.sizeOf_spec]; omega
    apply Prod.Lex.left
    simp only [Value.null.sizeOf_spec, Value.dict.sizeOf_spec]
    omega

end

/-- The type that a text writes, without components. -/
def parse (text : String) : Outcome AbiType :=
  ofText withoutComponents text.toList

end ContractClient.AbiType
