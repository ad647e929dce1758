import ContractClient.Proofs.Abi.Segment

/-!
# Blocks

Arrays and tuples are laid out alike: their items form a block. `AbiType.block?` encodes the items
of a block and `AbiType.decodeBlockAt` decodes those of the block at a position. The payloads of
arrays and tuples are blocks (`AbiType.payload?_tuple_eq_some_iff` and its siblings), and decoding
an array decodes a block whose members all have the type of its items
(`AbiType.decodeItems_eq_decodeBlockAt`). What holds of blocks thus has to be proved only once.

What a decoder finds in the block at the start of the data is what `decode` returns, and what is
wrong with it is the code of the fault (`decode_eq_ok_iff`, `decodingFails_of_decodeBlock`).
-/

namespace ContractClient

namespace AbiType

/-- The block of several values. -/
def block? [AddressCheck] (types : List AbiType) (values : List Value) : Option Bytes :=
  (parts? types values).bind layout?

/-- Decodes the block at a position. -/
def decodeBlockAt (data : Bytes) (types : List AbiType) (start : Nat) : Decoded (List Value) := do
  if anyDynamic types then checkMembers data start (headsEnd types start) types start
  decodeMembers data start types start

section Encoding

variable {type item : AbiType} {types components : List AbiType} {value : Value}
  {values : List Value} {parts : List Part} {content : Bytes} {length : Nat}

theorem layout?_eq_some_iff :
    layout? parts = some content ↔
      offsetsFit (headLength parts) parts = true ∧ layout parts = content := by
  simp [layout?]

variable [AddressCheck]

theorem block?_eq_some_iff :
    block? types values = some content ↔
      ∃ parts, parts? types values = some parts ∧
        offsetsFit (headLength parts) parts = true ∧ layout parts = content := by
  simp only [block?, Option.bind_eq_some_iff, layout?_eq_some_iff]

theorem parts?_nil_eq_some_iff : parts? [] values = some parts ↔ values = [] ∧ parts = [] := by
  cases values with
  | nil => simp [parts?, eq_comm]
  | cons value values => simp [parts?]

theorem parts?_cons_eq_some_iff :
    parts? (type :: types) values = some parts ↔
      ∃ value rest content parts', values = value :: rest ∧ payload? type value = some content ∧
        parts? types rest = some parts' ∧ parts = ⟨type.isDynamic, content⟩ :: parts' := by
  cases values with
  | nil => simp [parts?]
  | cons value values =>
      simp only [parts?, Option.bind_eq_bind, Option.bind_eq_some_iff, Option.some.injEq,
        List.cons.injEq]
      constructor
      · rintro ⟨content, payload, parts', rest, rfl⟩
        exact ⟨value, values, content, parts', ⟨rfl, rfl⟩, payload, rest, rfl⟩
      · rintro ⟨_, _, content, parts', ⟨rfl, rfl⟩, payload, rest, rfl⟩
        exact ⟨content, payload, parts', rest, rfl⟩

/-- The items of an array are the members of a block of one type. -/
theorem parts?_replicate (item : AbiType) (values : List Value) :
    parts? (List.replicate values.length item) values =
      (values.mapM (payload? item)).map (·.map (Part.mk item.isDynamic)) := by
  induction values with
  | nil => rfl
  | cons value values ih =>
      simp only [List.length_cons, List.replicate_succ, parts?, ih, List.mapM_cons,
        Option.bind_eq_bind]
      cases payload? item value with
      | none => rfl
      | some content => cases values.mapM (payload? item) <;> rfl

theorem block?_replicate (item : AbiType) (values : List Value) :
    block? (List.replicate values.length item) values =
      (values.mapM (payload? item)).bind fun contents =>
        layout? (contents.map (Part.mk item.isDynamic)) := by
  rw [block?, parts?_replicate]
  cases values.mapM (payload? item) <;> rfl

theorem payload?_tuple_eq_some_iff :
    payload? (.tuple components) value = some content ↔
      ∃ items, value.items? = some items ∧ block? components items = some content := by
  rw [payload?]
  cases value.items? <;> simp [block?]

theorem payload?_fixedArray_eq_some_iff :
    payload? (.fixedArray item length) value = some content ↔
      ∃ items, value.items? = some items ∧ items.length = length ∧
        block? (List.replicate length item) items = some content := by
  rw [payload?]
  cases value.items? with
  | none => simp
  | some items =>
      by_cases count : items.length = length
      · subst count
        simp [block?_replicate]
      · simp [count]

theorem payload?_array_eq_some_iff :
    payload? (.array item) value = some content ↔
      ∃ items body, value.items? = some items ∧ items.length < 2 ^ 256 ∧
        block? (List.replicate items.length item) items = some body ∧
          Bytes.word items.length ++ body = content := by
  rw [payload?]
  cases value.items? with
  | none => simp
  | some items =>
      by_cases fits : items.length < 2 ^ 256
      · simp only [fitsWord, fits, decide_true, if_true, Option.some.injEq, exists_and_left,
          exists_eq_left', true_and, block?_replicate]
        cases items.mapM (payload? item) <;> simp
      · simp only [fitsWord, fits, decide_false, Bool.false_eq_true, if_false, reduceCtorEq,
          Option.some.injEq, exists_and_left, exists_eq_left', false_and]

end Encoding

section Decoding

variable {data : Bytes}

theorem decodeAt_tuple (components : List AbiType) (position : Nat) :
    decodeAt data (.tuple components) position =
      (do return .tuple (← decodeBlockAt data components position)) := by
  rw [decodeAt, decodeBlockAt]
  split <;> simp

theorem anyDynamic_replicate (count : Nat) (item : AbiType) :
    anyDynamic (List.replicate count item) = (decide (0 < count) && item.isDynamic) := by
  induction count with
  | zero => rfl
  | succ count ih => simp [List.replicate_succ, anyDynamic, ih]

theorem headWords_of_isDynamic {item : AbiType} (dynamic : item.isDynamic = true) :
    item.headWords = 1 := by
  cases item with
  | fixedArray inner length => simp_all [headWords, isDynamic]
  | _ => rfl

theorem headSize_of_isDynamic {item : AbiType} (dynamic : item.isDynamic = true) :
    item.headSize = Bytes.wordLength := by
  simp [headSize, dynamic]

theorem checkOffsets_eq_checkMembers {item : AbiType} (dynamic : item.isDynamic = true)
    (start headsEnd count position : Nat) :
    checkOffsets data start headsEnd count position =
      checkMembers data start headsEnd (List.replicate count item) position := by
  induction count generalizing position with
  | zero => rfl
  | succ count ih =>
      simp only [checkOffsets, List.replicate_succ, checkMembers, dynamic, if_true, ih,
        headSize_of_isDynamic dynamic]

theorem decodeRun_eq_decodeMembers_of_isDynamic {item : AbiType}
    (dynamic : item.isDynamic = true) (start count position : Nat) :
    decodeRun (followOffset (decodeAt data item) data start) Bytes.wordLength count position =
      decodeMembers data start (List.replicate count item) position := by
  induction count generalizing position with
  | zero => rfl
  | succ count ih =>
      simp only [decodeRun, List.replicate_succ, decodeMembers, dynamic, if_true, ih,
        headSize_of_isDynamic dynamic]

theorem decodeRun_eq_decodeMembers_of_static {item : AbiType}
    (static : item.isDynamic = false) (start count position : Nat) :
    decodeRun (decodeAt data item) item.headSize count position =
      decodeMembers data start (List.replicate count item) position := by
  induction count generalizing position with
  | zero => rfl
  | succ count ih =>
      simp only [decodeRun, List.replicate_succ, decodeMembers, static, Bool.false_eq_true,
        if_false, ih]

/-- The items of an array are decoded like the members of a block of one type. -/
theorem decodeItems_eq_decodeBlockAt (item : AbiType) (count start : Nat) :
    decodeItems (decodeAt data item) item data count start =
      decodeBlockAt data (List.replicate count item) start := by
  cases dynamic : item.isDynamic with
  | false =>
      simp [decodeItems, decodeBlockAt, anyDynamic_replicate, dynamic,
        decodeRun_eq_decodeMembers_of_static dynamic start]
  | true =>
      cases count with
      | zero => simp [decodeItems, decodeBlockAt, dynamic, checkOffsets, decodeRun, anyDynamic,
          decodeMembers]
      | succ count =>
          have sameEnd : headsEnd (List.replicate (count + 1) item) start =
              start + Bytes.wordLength * (count + 1) := by
            simp [headsEnd, headWords_of_isDynamic dynamic]
          simp only [decodeItems, dynamic, if_true, decodeBlockAt, anyDynamic_replicate,
            Nat.zero_lt_succ, decide_true, Bool.true_and, sameEnd,
            checkOffsets_eq_checkMembers dynamic,
            decodeRun_eq_decodeMembers_of_isDynamic dynamic]

/-- The first member of a block is decoded where its head stands, or behind its offset. -/
theorem decodeMembers_cons_inv {type : AbiType} {types : List AbiType} {start position : Nat}
    {raws : List Value} (decoded : decodeMembers data start (type :: types) position = .ok raws) :
    ∃ place raw rest, raws = raw :: rest ∧ decodeAt data type place = .ok raw ∧
      (type.isDynamic = false → place = position) ∧
        decodeMembers data start types (position + type.headSize) = .ok rest := by
  rw [decodeMembers] at decoded
  cases dynamic : type.isDynamic with
  | true =>
      rw [dynamic, if_pos rfl] at decoded
      rcases Outcome.bind_eq_ok_iff.mp decoded with ⟨raw, followed, decoded⟩
      rcases Outcome.bind_eq_ok_iff.mp followed with ⟨offset, _, first⟩
      rcases Outcome.bind_eq_ok_iff.mp decoded with ⟨rest, others, found⟩
      cases found
      exact ⟨start + offset, raw, rest, rfl, first, nofun, others⟩
  | false =>
      rw [dynamic, if_neg Bool.false_ne_true] at decoded
      rcases Outcome.bind_eq_ok_iff.mp decoded with ⟨raw, first, decoded⟩
      rcases Outcome.bind_eq_ok_iff.mp decoded with ⟨rest, others, found⟩
      cases found
      exact ⟨position, raw, rest, rfl, first, fun _ => rfl, others⟩

theorem length_of_decodeMembers {types : List AbiType} {start position : Nat} {raws : List Value}
    (decoded : decodeMembers data start types position = .ok raws) :
    raws.length = types.length := by
  induction types generalizing position raws with
  | nil =>
      cases decoded
      rfl
  | cons type types ih =>
      rcases decodeMembers_cons_inv decoded with ⟨_, _, rest, rfl, _, _, others⟩
      rw [List.length_cons, List.length_cons, ih others]

theorem length_normaliseAll {types : List AbiType} {raws : List Value}
    (count : raws.length = types.length) : (normaliseAll types raws).length = types.length := by
  induction types generalizing raws with
  | nil => cases raws <;> simp [normaliseAll]
  | cons type types ih =>
      cases raws with
      | nil => cases count
      | cons raw raws =>
          rw [normaliseAll, List.length_cons, List.length_cons, ih (by simpa using count)]

/-- What is decoded from a block is what the second pass yields. -/
theorem decodeMembers_of_decodeBlockAt {types : List AbiType} {start : Nat} {raws : List Value}
    (decoded : decodeBlockAt data types start = .ok raws) :
    decodeMembers data start types start = .ok raws := by
  rw [decodeBlockAt] at decoded
  split at decoded
  · rcases Outcome.bind_eq_ok_iff.mp decoded with ⟨_, _, decodedMembers⟩
    exact decodedMembers
  · exact decoded

end Decoding

end AbiType

/-- Decoding the data ends with a fault of this code. -/
def DecodingFails (types : List AbiType) (data : Bytes) (code : String) : Prop :=
  ∃ fault, decode types data = Outcome.fault fault ∧ fault.kind = .decode ∧ fault.code = code

section Decoding

variable {types : List AbiType} {data : Bytes}

theorem decode_of_decodeBlock_eq_ok {raws : List Value}
    (nonempty : ∀ type ∈ types, type.isEmptyTuple = false)
    (decoded : AbiType.decodeBlock types data = .ok raws) :
    decode types data = .ok (AbiType.normaliseAll types raws) := by
  have noneEmpty : types.any AbiType.isEmptyTuple = false := by simpa using nonempty
  rw [decode, noneEmpty, decoded]
  rfl

theorem decode_of_decodeBlock_eq_error {issue : DecodeIssue}
    (nonempty : ∀ type ∈ types, type.isEmptyTuple = false)
    (failed : AbiType.decodeBlock types data = .error issue) :
    decode types data = Outcome.fault (issue.fault types) := by
  have noneEmpty : types.any AbiType.isEmptyTuple = false := by simpa using nonempty
  rw [decode, noneEmpty, failed]
  rfl

theorem decode_eq_ok_iff {values : List Value}
    (nonempty : ∀ type ∈ types, type.isEmptyTuple = false) :
    decode types data = .ok values ↔
      ∃ raws, AbiType.decodeBlock types data = .ok raws ∧
        AbiType.normaliseAll types raws = values := by
  cases decoded : AbiType.decodeBlock types data with
  | ok raws => simp [decode_of_decodeBlock_eq_ok nonempty decoded]
  | error issue => simp [decode_of_decodeBlock_eq_error nonempty decoded]

/-- There is a value for every type. -/
theorem length_of_decode {values : List Value} (decoded : decode types data = .ok values) :
    values.length = types.length := by
  rw [decode] at decoded
  split at decoded
  · cases decoded
  · split at decoded
    · next raws decodedBlock =>
        cases decoded
        have count := AbiType.length_of_decodeMembers
          (AbiType.decodeMembers_of_decodeBlockAt decodedBlock)
        exact AbiType.length_normaliseAll count
    · cases decoded

theorem DecodeIssue.code_fault (issue : DecodeIssue) : (issue.fault types).code = issue.code := by
  cases issue <;> rfl

theorem decodingFails_of_decodeBlock {issue : DecodeIssue}
    (nonempty : ∀ type ∈ types, type.isEmptyTuple = false)
    (failed : AbiType.decodeBlock types data = .error issue) :
    DecodingFails types data issue.code :=
  ⟨_, decode_of_decodeBlock_eq_error nonempty failed, rfl, issue.code_fault⟩

end Decoding

end ContractClient
