import ContractClient.Proofs.Contract.Result

/-!
# Unexplained reverts

The payload of a revert that a node returns as a result is reported if the decoder of reasons
explains it. One that nobody explains, such as that of a custom error, is decoded like return data,
and no revert is reported (`decodeCallResult_payload`). What is decoded then stands a selector too
early, and the first word decides in most cases whether it passes for outputs: it starts with the
selector. A word that leaves room for no selector (`AbiType.IsNarrow`), or an offset, is refused;
types made of full words (`AbiType.IsWide`) accept everything that is long enough.
-/

namespace ContractClient

open Bytes

/-- The number of a word that starts with the bytes 0 or the bytes 255 only, as many as a selector
has. -/
def IsNarrowWord (number : Nat) : Prop :=
  number < 2 ^ 224 ∨ 2 ^ 256 - 2 ^ 224 ≤ number

namespace AbiType

/-- What a value of the type is encoded as starts with a narrow word, if it is static. -/
inductive IsNarrow : AbiType → Prop where
  | uint {bits : Nat} (small : bits ≤ 224) : IsNarrow (.uint bits)
  | int {bits : Nat} (small : bits ≤ 224) : IsNarrow (.int bits)
  | address : IsNarrow .address
  | bool : IsNarrow .bool
  | fixedArray {item : AbiType} {count : Nat} (narrow : IsNarrow item) :
      IsNarrow (.fixedArray item (count + 1))
  | tuple {first : AbiType} {rest : List AbiType} (narrow : IsNarrow first) :
      IsNarrow (.tuple (first :: rest))

/-- Values of the type are full words, and every word is a value. -/
inductive IsWide : AbiType → Prop where
  | uint : IsWide (.uint 256)
  | int : IsWide (.int 256)
  | fixedBytes : IsWide (.fixedBytes wordLength)
  | fixedArray {item : AbiType} {count : Nat} (wide : IsWide item) :
      IsWide (.fixedArray item count)
  | tuple {first : AbiType} {rest : List AbiType}
      (wide : ∀ component ∈ first :: rest, IsWide component) : IsWide (.tuple (first :: rest))

variable {type : AbiType} {types : List AbiType} {data selector body : Bytes} {raw : Value}
  {raws : List Value} {position start number : Nat}

section Narrow

theorem isNarrowWord_uint {bits : Nat} (small : bits ≤ 224)
    (decoded : decodeAt data (.uint bits) position = .ok raw) :
    ∃ number, readNat data position = .ok number ∧ IsNarrowWord number := by
  rcases Outcome.bind_eq_ok_iff.mp decoded with ⟨number, read, decoded⟩
  have limit : 2 ^ bits ≤ 2 ^ 224 := Nat.pow_le_pow_right (by decide) small
  refine ⟨number, read, Or.inl ?_⟩
  rw [unsignedOfWord] at decoded
  split at decoded
  · omega
  · cases decoded

theorem isNarrowWord_int {bits : Nat} (small : bits ≤ 224)
    (decoded : decodeAt data (.int bits) position = .ok raw) :
    ∃ number, readNat data position = .ok number ∧ IsNarrowWord number := by
  rcases Outcome.bind_eq_ok_iff.mp decoded with ⟨number, read, decoded⟩
  have limit : 2 ^ (bits - 1) ≤ 2 ^ 224 := Nat.pow_le_pow_right (by decide) (by omega)
  refine ⟨number, read, ?_⟩
  rw [signedOfWord] at decoded
  split at decoded
  · exact Or.inl (by omega)
  · split at decoded
    · exact Or.inr (by omega)
    · cases decoded

theorem isNarrowWord_bool (decoded : decodeAt data .bool position = .ok raw) :
    ∃ number, readNat data position = .ok number ∧ IsNarrowWord number := by
  rcases Outcome.bind_eq_ok_iff.mp decoded with ⟨number, read, decoded⟩
  refine ⟨number, read, Or.inl ?_⟩
  rw [flagOfWord] at decoded
  split at decoded
  · cases decoded
  · split at decoded
    · cases decoded
    · omega

theorem isNarrowWord_address (decoded : decodeAt data .address position = .ok raw) :
    ∃ number, readNat data position = .ok number ∧ IsNarrowWord number := by
  rcases Outcome.bind_eq_ok_iff.mp decoded with ⟨word, read, decoded⟩
  rcases readBytes_eq_ok_iff.mp read with ⟨width, _⟩
  have readNumber : readNat data position = .ok (toNat word) := by
    rw [readNat, read]
    rfl
  refine ⟨toNat word, readNumber, Or.inl ?_⟩
  simp only [addressOfWord] at decoded
  split at decoded
  · next zero =>
      generalize found : word.drop (wordLength - Address.length) = octets
      have size : octets.length = Address.length := by
        rw [← found, List.length_drop, width]
        rfl
      have split : toNat word = toNat octets := by
        rw [← List.take_append_drop (wordLength - Address.length) word, eq_zeros_of_all zero,
          found, toNat_append, toNat_zeros, Nat.zero_mul, Nat.zero_add]
      have small := toNat_lt octets
      have limit : 256 ^ Address.length ≤ 2 ^ 224 := by decide
      rw [size] at small
      omega
  · cases decoded

/-- A static value of a narrow type is decoded from a place at which a narrow word stands. -/
theorem isNarrowWord_of_decodeAt (narrow : type.IsNarrow) (static : type.isDynamic = false)
    (decoded : decodeAt data type position = .ok raw) :
    ∃ number, readNat data position = .ok number ∧ IsNarrowWord number := by
  induction narrow generalizing raw with
  | uint small => exact isNarrowWord_uint small decoded
  | int small => exact isNarrowWord_int small decoded
  | address => exact isNarrowWord_address decoded
  | bool => exact isNarrowWord_bool decoded
  | fixedArray narrow ih =>
      rw [decodeAt, decodeItems_eq_decodeBlockAt] at decoded
      rcases Outcome.bind_eq_ok_iff.mp decoded with ⟨raws, decodedItems, _⟩
      rcases decodeMembers_cons_inv (decodeMembers_of_decodeBlockAt decodedItems) with
        ⟨place, first, _, _, decodedFirst, here, _⟩
      rw [here static] at decodedFirst
      exact ih static decodedFirst
  | tuple narrow ih =>
      rcases Bool.or_eq_false_iff.mp static with ⟨firstStatic, _⟩
      rw [decodeAt_tuple] at decoded
      rcases Outcome.bind_eq_ok_iff.mp decoded with ⟨raws, decodedItems, _⟩
      rcases decodeMembers_cons_inv (decodeMembers_of_decodeBlockAt decodedItems) with
        ⟨place, first, _, _, decodedFirst, here, _⟩
      rw [here firstStatic] at decodedFirst
      exact ih firstStatic decodedFirst

/-- Data that is not too long is decoded from the start only if a narrow word stands there, provided
that the first type is narrow, or dynamic: then the word is an offset. -/
theorem isNarrowWord_of_decodeBlock (first : type.IsNarrow ∨ type.isDynamic = true)
    (short : data.length ≤ 2 ^ 224) (decoded : decodeBlock (type :: types) data = .ok raws) :
    ∃ number, readNat data 0 = .ok number ∧ IsNarrowWord number := by
  cases dynamic : type.isDynamic with
  | true =>
      have anyDynamic : anyDynamic (type :: types) = true := by simp [AbiType.anyDynamic, dynamic]
      rw [decodeBlock, if_pos anyDynamic] at decoded
      rcases Outcome.bind_eq_ok_iff.mp decoded with ⟨_, checked, _⟩
      rw [checkMembers, if_pos dynamic] at checked
      rcases Outcome.bind_eq_ok_iff.mp checked with ⟨_, checkedFirst, _⟩
      rcases Outcome.bind_eq_ok_iff.mp checkedFirst with ⟨offset, read, within⟩
      split at within
      · next inside => exact ⟨offset, read, Or.inl (by omega)⟩
      · cases within
  | false =>
      have narrow : type.IsNarrow := first.resolve_right (by simp [dynamic])
      have decodedMembers : decodeMembers data 0 (type :: types) 0 = .ok raws :=
        decodeMembers_of_decodeBlockAt decoded
      rcases decodeMembers_cons_inv decodedMembers with
        ⟨place, raw, _, _, decodedFirst, here, _⟩
      rw [here dynamic] at decodedFirst
      exact isNarrowWord_of_decodeAt narrow dynamic decodedFirst

/-- A narrow word at the start of a payload makes its selector one of two. -/
theorem toNat_selector_of_narrow (size : selector.length = selectorLength)
    (read : readNat (selector ++ body) 0 = .ok number) (narrow : IsNarrowWord number) :
    toNat selector = 0 ∨ toNat selector = 2 ^ 32 - 1 := by
  rcases readNat_eq_ok_iff.mp read with ⟨fits, stands⟩
  have front : word number = selector ++ body.take 28 := by
    have taken := stands.eq_take
    rw [length_word, List.take_append, size] at taken
    rwa [List.take_of_length_le (by rw [size]; decide)] at taken
  have rest : (body.take 28).length = 28 := by
    have lengths := congrArg List.length front
    rw [length_word, List.length_append, size] at lengths
    unfold wordLength selectorLength at lengths
    omega
  have split : number = toNat selector * 2 ^ 224 + toNat (body.take 28) := by
    have limit : 256 ^ 28 = 2 ^ 224 := by decide
    rw [← toNat_word fits, front, toNat_append, rest, limit]
  have small := toNat_lt (body.take 28)
  have limit : 256 ^ 28 = 2 ^ 224 := by decide
  rw [rest, limit] at small
  unfold IsNarrowWord at narrow
  omega

/-- A payload is not decoded if its selector is the start of no narrow word, provided that the first
type is narrow or dynamic. -/
theorem decode_payload_ne_ok (first : type.IsNarrow ∨ type.isDynamic = true)
    (size : selector.length = selectorLength) (notZero : selector ≠ zeros selectorLength)
    (notFull : selector ≠ List.replicate selectorLength 255)
    (short : (selector ++ body).length ≤ 2 ^ 224) (values : List Value) :
    decode (type :: types) (selector ++ body) ≠ .ok values := by
  intro decoded
  obtain ⟨raws, decodedBlock⟩ : ∃ raws,
      decodeBlock (type :: types) (selector ++ body) = .ok raws := by
    rw [decode] at decoded
    split at decoded
    · cases decoded
    · split at decoded
      · next raws decodedBlock => exact ⟨raws, decodedBlock⟩
      · cases decoded
  rcases isNarrowWord_of_decodeBlock first short decodedBlock with ⟨number, read, narrow⟩
  rcases toNat_selector_of_narrow size read narrow with zero | full
  · exact notZero (toNat_inj (by simp [size]) (by rw [zero, toNat_zeros]))
  · exact notFull (toNat_inj (by simp [size]) (by rw [full]; rfl))

end Narrow

section Wide

theorem anyDynamic_of_forall (static : ∀ type ∈ types, type.isDynamic = false) :
    anyDynamic types = false := by
  induction types with
  | nil => rfl
  | cons first rest ih =>
      rw [List.forall_mem_cons] at static
      exact Bool.or_eq_false_iff.mpr ⟨static.1, ih static.2⟩

theorem IsWide.static (wide : type.IsWide) : type.isDynamic = false := by
  induction wide with
  | uint => rfl
  | int => rfl
  | fixedBytes => rfl
  | fixedArray wide ih => exact ih
  | tuple wide ih => exact anyDynamic_of_forall ih

theorem exists_readBytes (within : position + wordLength ≤ data.length) :
    ∃ word, readBytes data position wordLength = .ok word ∧ word.length = wordLength := by
  refine ⟨(data.drop position).take wordLength, if_pos within, ?_⟩
  simp
  omega

theorem exists_decodeMembers
    (each : ∀ type ∈ types, ∀ position, position + type.headSize ≤ data.length →
      ∃ raw, decodeAt data type position = .ok raw)
    (static : ∀ type ∈ types, type.isDynamic = false)
    (within : position + (types.map headSize).sum ≤ data.length) :
    ∃ raws, decodeMembers data start types position = .ok raws := by
  induction types generalizing position with
  | nil => exact ⟨[], rfl⟩
  | cons first rest ih =>
      rw [List.forall_mem_cons] at each static
      rw [List.map_cons, List.sum_cons] at within
      rcases each.1 position (by omega) with ⟨raw, decoded⟩
      have withinRest : position + first.headSize + (rest.map headSize).sum ≤ data.length := by
        omega
      rcases ih each.2 static.2 withinRest with ⟨raws, others⟩
      exact ⟨raw :: raws, by simp [decodeMembers, static.1, decoded, others]⟩

/-- A block of static values is decoded from whatever is long enough, provided that this holds of
their types. -/
theorem exists_decodeBlockAt
    (each : ∀ type ∈ types, ∀ position, position + type.headSize ≤ data.length →
      ∃ raw, decodeAt data type position = .ok raw)
    (static : ∀ type ∈ types, type.isDynamic = false)
    (within : start + staticSizes types ≤ data.length) :
    ∃ raws, decodeBlockAt data types start = .ok raws := by
  have noneDynamic := anyDynamic_of_forall static
  rw [← sum_headSize_of_static noneDynamic] at within
  obtain ⟨raws, decoded⟩ : ∃ raws, decodeMembers data start types start = .ok raws :=
    exists_decodeMembers each static within
  exact ⟨raws, by simp [decodeBlockAt, noneDynamic, decoded]⟩

theorem exists_signedOfWord {word : Bytes} (size : word.length = wordLength) :
    ∃ raw, signedOfWord 256 (toNat word) = .ok raw := by
  have fits := toNat_lt_of_word size
  rw [signedOfWord]
  split
  · exact ⟨_, rfl⟩
  · next high =>
      rw [if_pos (by omega)]
      exact ⟨_, rfl⟩

theorem exists_decodeAt_of_isWide (wide : type.IsWide)
    (within : position + type.headSize ≤ data.length) :
    ∃ raw, decodeAt data type position = .ok raw := by
  induction wide generalizing position with
  | uint =>
      rcases exists_readBytes within with ⟨word, read, size⟩
      have fits := toNat_lt_of_word size
      exact ⟨.int (toNat word), by simp [decodeAt, readNat, read, unsignedOfWord, fits]⟩
  | int =>
      rcases exists_readBytes within with ⟨word, read, size⟩
      rcases exists_signedOfWord size with ⟨raw, decoded⟩
      exact ⟨raw, by simp [decodeAt, readNat, read, decoded]⟩
  | fixedBytes =>
      rcases exists_readBytes within with ⟨word, read, size⟩
      have noPadding : word.drop wordLength = [] := List.drop_eq_nil_of_le (Nat.le_of_eq size)
      exact ⟨.bytes (word.take wordLength), by simp [decodeAt, read, fixedBytesOfWord, noPadding]⟩
  | @fixedArray item count wide ih =>
      have each : ∀ type ∈ List.replicate count item, ∀ position,
          position + type.headSize ≤ data.length → ∃ raw, decodeAt data type position = .ok raw :=
        fun type member position => List.eq_of_mem_replicate member ▸ ih
      have static : ∀ type ∈ List.replicate count item, type.isDynamic = false :=
        fun type member => List.eq_of_mem_replicate member ▸ wide.static
      have sizes : (fixedArray item count).headSize = staticSizes (List.replicate count item) := by
        rw [headSize, (IsWide.fixedArray wide).static, staticSizes_replicate]
        rfl
      rw [sizes] at within
      rcases exists_decodeBlockAt each static within with ⟨raws, decoded⟩
      exact ⟨.tuple raws, by simp [decodeAt, decodeItems_eq_decodeBlockAt, decoded]⟩
  | @tuple first rest wide ih =>
      have static : ∀ type ∈ first :: rest, type.isDynamic = false :=
        fun type member => (wide type member).static
      have sizes : (tuple (first :: rest)).headSize = staticSizes (first :: rest) := by
        rw [headSize, (IsWide.tuple wide).static]
        rfl
      rw [sizes] at within
      rcases exists_decodeBlockAt (fun type member _ => ih type member) static within with
        ⟨raws, decoded⟩
      exact ⟨.tuple raws, by simp [decodeAt_tuple, decoded]⟩

/-- Whatever is long enough is decoded as values of wide types. -/
theorem exists_decode_of_isWide (wide : ∀ type ∈ types, type.IsWide)
    (within : staticSizes types ≤ data.length) : ∃ values, decode types data = .ok values := by
  have withinBlock : 0 + staticSizes types ≤ data.length := by omega
  obtain ⟨raws, decoded⟩ : ∃ raws, decodeBlock types data = .ok raws :=
    exists_decodeBlockAt (fun type member _ => exists_decodeAt_of_isWide (wide type member))
      (fun type member => (wide type member).static) withinBlock
  have nonempty : ∀ type ∈ types, type.isEmptyTuple = false := by
    intro type member
    cases wide type member <;> rfl
  exact ⟨_, decode_of_decodeBlock_eq_ok nonempty decoded⟩

end Wide

end AbiType

section Payloads

variable {function : ContractFunction} {decoder : RevertDecoder} {selector body : Bytes}

theorem decodeOutput_eq_ok_iff (hasOutputs : function.outputs ≠ []) {data : Bytes} :
    (∃ value, function.decodeOutput data = .ok value) ↔
      ∃ values, decode (Param.types function.outputs) data = .ok values := by
  constructor
  · rintro ⟨value, decoded⟩
    have nonempty : function.outputs.isEmpty = false := by simpa using hasOutputs
    rw [ContractFunction.decodeOutput, nonempty] at decoded
    rcases Outcome.bind_eq_ok_iff.mp decoded with ⟨values, decodedValues, _⟩
    exact ⟨values, decodedValues⟩
  · rintro ⟨values, decoded⟩
    exact ⟨_, ContractFunction.decodeOutput_of_decode hasOutputs decoded⟩

theorem kind_of_decode {types : List AbiType} {data : Bytes} {fault : Fault}
    (failed : decode types data = Outcome.fault fault) : fault.kind = .decode := by
  rw [decode] at failed
  split at failed
  · cases failed
  · split at failed
    · cases failed
    · cases failed
      rfl

theorem kind_of_decodeOutput (hasOutputs : function.outputs ≠ []) {data : Bytes} {fault : Fault}
    (failed : function.decodeOutput data = Outcome.fault fault) : fault.kind = .decode := by
  cases decoded : decode (Param.types function.outputs) data with
  | ok values =>
      rw [ContractFunction.decodeOutput_of_decode hasOutputs decoded] at failed
      cases failed
  | error failure =>
      have nonempty : function.outputs.isEmpty = false := by simpa using hasOutputs
      rw [ContractFunction.decodeOutput, nonempty, decoded] at failed
      cases failed
      exact kind_of_decode decoded

/-- A payload is reported if it is explained, and decoded like return data if it is not. -/
theorem decodeCallResult_eq (size : selector.length = selectorLength)
    (whole : wordLength ∣ body.length) :
    decodeCallResult function (.text (Data.ofBytes (selector ++ body))) decoder =
      decoder (selector ++ body) >>= fun
        | some reason => Outcome.fault (.callReverted (some reason) (some (selector ++ body)))
        | none => function.decodeOutput (selector ++ body) := by
  have length := length_append_mod size whole
  have present : selector ++ body ≠ [] := by
    intro empty
    rw [empty] at length
    exact absurd length (by decide)
  simp only [decodeCallResult, Data.toBytes_ofBytes, Outcome.ok_bind, length, if_true]
  have noBytes : (selector ++ body).isEmpty = false := by simpa using present
  simp only [noBytes, Bool.and_false, Bool.false_eq_true, if_false]
  cases explained : decoder (selector ++ body) with
  | error failure => rfl
  | ok reason? => cases reason? <;> rfl

/-- A payload that a node returns as a result is reported as a revert exactly if it is explained. If
it is not, the values that the data decodes to are returned, and no revert is reported. They are
refused if the first output is narrow or dynamic, unless the selector is one of the two that narrow
words start with; they are returned if all outputs are wide and the payload is long enough. -/
theorem decodeCallResult_payload (hasOutputs : function.outputs ≠ []) (decoder : RevertDecoder)
    (size : selector.length = selectorLength) (whole : wordLength ∣ body.length) :
    (∀ reason, decoder (selector ++ body) = .ok (some reason) →
      decodeCallResult function (.text (Data.ofBytes (selector ++ body))) decoder =
        Outcome.fault (.callReverted (some reason) (some (selector ++ body)))) ∧
    ((∃ value, decodeCallResult function (.text (Data.ofBytes (selector ++ body))) decoder =
        .ok value) ↔
      decoder (selector ++ body) = .ok none ∧
        ∃ values, decode (Param.types function.outputs) (selector ++ body) = .ok values) ∧
    (decoder (selector ++ body) = .ok none → ∀ fault,
      decodeCallResult function (.text (Data.ofBytes (selector ++ body))) decoder =
        Outcome.fault fault → fault.kind = .decode) ∧
    (∀ first rest, Param.types function.outputs = first :: rest →
      first.IsNarrow ∨ first.isDynamic = true → selector ≠ zeros selectorLength →
      selector ≠ List.replicate selectorLength 255 → (selector ++ body).length ≤ 2 ^ 224 →
        ∀ values, decode (Param.types function.outputs) (selector ++ body) ≠ .ok values) ∧
    ((∀ type ∈ Param.types function.outputs, type.IsWide) →
      AbiType.staticSizes (Param.types function.outputs) ≤ (selector ++ body).length →
        ∃ values, decode (Param.types function.outputs) (selector ++ body) = .ok values) := by
  rw [decodeCallResult_eq size whole]
  refine ⟨?_, ?_, ?_, ?_, AbiType.exists_decode_of_isWide⟩
  · intro reason explained
    rw [explained]
    rfl
  · rw [← decodeOutput_eq_ok_iff hasOutputs]
    constructor
    · rintro ⟨value, decoded⟩
      rcases Outcome.bind_eq_ok_iff.mp decoded with ⟨reason?, explained, decoded⟩
      cases reason? with
      | none => exact ⟨explained, value, decoded⟩
      | some reason => cases decoded
    · rintro ⟨unexplained, value, decoded⟩
      exact ⟨value, by rw [unexplained, Outcome.ok_bind]; exact decoded⟩
  · intro unexplained fault failed
    rw [unexplained, Outcome.ok_bind] at failed
    exact kind_of_decodeOutput hasOutputs failed
  · intro first rest outputs narrow notZero notFull short
    rw [outputs]
    exact AbiType.decode_payload_ne_ok narrow size notZero notFull short

/-- A function that returns a number. -/
def balanceOf : ContractFunction := { name := "balanceOf", outputs := [{ type := .uint 256 }] }

/-- The selector of an error that says what is missing to a transfer. -/
def shortage : Bytes := [0xe4, 0x50, 0xd3, 0x8c]

theorem wide_balanceOf : ∀ type ∈ Param.types balanceOf.outputs, type.IsWide := by
  simpa [balanceOf, Param.types] using AbiType.IsWide.uint

theorem decodeCallResult_payload_shortage :
    balanceOf.outputs ≠ [] ∧ shortage.length = selectorLength ∧
      wordLength ∣ (zeros 96).length ∧ RevertDecoder.standard (shortage ++ zeros 96) = .ok none ∧
        ∃ value, decodeCallResult balanceOf (.text (Data.ofBytes (shortage ++ zeros 96)))
          .standard = .ok value := by
  have hasOutputs : balanceOf.outputs ≠ [] := List.cons_ne_nil _ _
  have whole : wordLength ∣ (zeros 96).length := ⟨3, rfl⟩
  have unexplained : RevertDecoder.standard (shortage ++ zeros 96) = .ok none := rfl
  have size : shortage.length = selectorLength := rfl
  rcases decodeCallResult_payload hasOutputs .standard size whole with ⟨_, returns, _, _, wide⟩
  have decoded := wide wide_balanceOf (by decide)
  exact ⟨hasOutputs, size, whole, unexplained, returns.mpr ⟨unexplained, decoded⟩⟩

/-- The payload of a revert may be taken for return data. -/
theorem not_reverted_of_unexplained : ¬∀ (function : ContractFunction) (decoder : RevertDecoder)
    (selector body : Bytes), function.outputs ≠ [] → selector.length = selectorLength →
      wordLength ∣ body.length → ∀ value,
        decodeCallResult function (.text (Data.ofBytes (selector ++ body))) decoder ≠
          .ok value := by
  intro reverts
  have hasOutputs : balanceOf.outputs ≠ [] := List.cons_ne_nil _ _
  have whole : wordLength ∣ (zeros 96).length := ⟨3, rfl⟩
  have unexplained : RevertDecoder.standard (shortage ++ zeros 96) = .ok none := rfl
  have long : AbiType.staticSizes (Param.types balanceOf.outputs) ≤
      (shortage ++ zeros 96).length := by decide
  rcases (decodeOutput_eq_ok_iff hasOutputs).mpr
    (AbiType.exists_decode_of_isWide wide_balanceOf long) with ⟨value, decoded⟩
  refine reverts balanceOf .standard shortage (zeros 96) hasOutputs rfl whole value ?_
  rw [decodeCallResult_eq rfl whole, unexplained, Outcome.ok_bind]
  exact decoded

end Payloads

end ContractClient
