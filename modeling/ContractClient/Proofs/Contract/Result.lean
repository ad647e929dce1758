import ContractClient.Contract.Call
import ContractClient.Proofs.Abi.RoundTrip
import ContractClient.Proofs.Wire.Data

/-!
# Results and reverts

Some nodes return the payload of a revert as the result of a call. `decodeCallResult` tells such a
payload from return data by its length alone: what encodes the outputs of a function occupies whole
words (`AbiType.dvd_length_block`), and a payload occupies a selector more. Return data is thus
never taken for a revert, even where it starts with the bytes of a selector, and a payload never for
return data (`decodeCallResult_separates`).
-/

namespace ContractClient

section Outputs

variable {function : ContractFunction} {decoder : RevertDecoder} {values : List Value}
  {block : Bytes}

/-- What a caller gets for the values of the outputs: the value itself for one output, and a tuple
for several. -/
def Value.ofOutputs : List Value → Value
  | [value] => value
  | values => .tuple values

theorem ContractFunction.decodeOutput_of_decode (hasOutputs : function.outputs ≠ [])
    (decoded : decode (Param.types function.outputs) block = .ok values) :
    function.decodeOutput block = .ok (Value.ofOutputs values) := by
  have nonempty : function.outputs.isEmpty = false := by simpa using hasOutputs
  rw [decodeOutput, nonempty, decoded]
  match values with
  | [] | [_] | _ :: _ :: _ => rfl

/-- Return data in whole words is decoded, and no decoder of reverts is asked. -/
theorem decodeCallResult_of_dvd (present : block ≠ []) (whole : Bytes.wordLength ∣ block.length) :
    decodeCallResult function (.text (Data.ofBytes block)) decoder =
      function.decodeOutput block := by
  have noRevert : block.length % Bytes.wordLength ≠ selectorLength := by
    rw [Nat.mod_eq_zero_of_dvd whole]
    decide
  simp [decodeCallResult, Data.toBytes_ofBytes, present, noRevert]

theorem decodeCallResult_encode (hasOutputs : function.outputs ≠ [])
    (constructed : ∀ type ∈ Param.types function.outputs, type.Constructed)
    (encoded : encode (Param.types function.outputs) values = .ok block) :
    decodeCallResult function (.text (Data.ofBytes block)) decoder =
      .ok (Value.ofOutputs (AbiType.normalForms (Param.types function.outputs) values)) := by
  rcases encode_eq_ok_iff.mp encoded with ⟨_, noneEmpty, encodedBlock⟩
  have nonempty : ∀ type ∈ Param.types function.outputs, type.isEmptyTuple = false := by
    simpa using noneEmpty
  have wellFormed := AbiType.allWellFormed_of_constructed constructed nonempty
  have present : block ≠ [] := by
    rcases List.exists_cons_of_ne_nil hasOutputs with ⟨output, outputs, shape⟩
    rw [shape] at wellFormed encodedBlock
    have width := AbiType.wordLength_le_length_block wellFormed encodedBlock
    rintro rfl
    exact absurd width (by decide)
  rw [decodeCallResult_of_dvd present (AbiType.dvd_length_block wellFormed encodedBlock)]
  exact ContractFunction.decodeOutput_of_decode hasOutputs
    (decode_block? constructed nonempty encodedBlock)

end Outputs

section Reverts

variable {function : ContractFunction} {decoder : RevertDecoder} {payload : Bytes}
  {reason : String}

/-- The decoders that explain reverts: the standard one, and those of interfaces of contracts. -/
inductive RevertDecoder.Provided : RevertDecoder → Prop where
  | standard : Provided .standard
  | ofInterface (abi : ContractAbi) : Provided abi.decodeError

/-- Whatever custom errors an interface declares, the reason of a message or a panic comes first. -/
theorem RevertDecoder.Provided.explains (provided : decoder.Provided)
    (known : decodeRevertReason payload = some reason) : decoder payload = .ok (some reason) := by
  cases provided with
  | standard => rw [RevertDecoder.standard, known]
  | ofInterface abi => rw [ContractAbi.decodeError, known]

/-- A payload is reported as a revert, whatever the outputs of the function are. -/
theorem decodeCallResult_of_reason (provided : decoder.Provided)
    (length : payload.length % Bytes.wordLength = selectorLength)
    (known : decodeRevertReason payload = some reason) :
    decodeCallResult function (.text (Data.ofBytes payload)) decoder =
      Outcome.fault (.callReverted (some reason) (some payload)) := by
  have present : payload ≠ [] := by
    rintro rfl
    exact absurd length (by decide)
  simp [decodeCallResult, Data.toBytes_ofBytes, present, length, provided.explains known]

/-- A selector before whole words has the length of a payload. -/
theorem length_append_mod {selector body : Bytes} (size : selector.length = selectorLength)
    (whole : Bytes.wordLength ∣ body.length) :
    (selector ++ body).length % Bytes.wordLength = selectorLength := by
  rw [List.length_append, size]
  unfold Bytes.wordLength selectorLength at *
  omega

section Payloads

variable {type : AbiType} {value message : Value} {body : Bytes} {code : Nat}

theorem dvd_length_of_encodeSingle (constructed : type.Constructed)
    (encoded : encodeSingle type value = .ok body) : Bytes.wordLength ∣ body.length := by
  rcases encode_eq_ok_iff.mp encoded with ⟨_, nonempty, encodedBlock⟩
  have wellFormed : AbiType.AllWellFormed [type] :=
    AbiType.allWellFormed_of_constructed (by simpa using constructed) (by simpa using nonempty)
  exact AbiType.dvd_length_block wellFormed encodedBlock

theorem encodeRevertReason_eq_ok_iff :
    encodeRevertReason message = .ok payload ↔
      ∃ body, encodeSingle .string message = .ok body ∧ messageSelector ++ body = payload := by
  simp [encodeRevertReason, Outcome.bind_eq_ok_iff]

theorem exists_text_of_encodeSingle (encoded : encodeSingle .string message = .ok body) :
    ∃ text, message = .text text := by
  rcases encode_eq_ok_iff.mp encoded with ⟨_, _, encodedBlock⟩
  rcases AbiType.block?_eq_some_iff.mp encodedBlock with ⟨_, encodedParts, _, _⟩
  rcases AbiType.parts?_cons_eq_some_iff.mp encodedParts with ⟨_, _, _, _, shape, payload, _, _⟩
  cases shape
  rcases AbiType.payload?_string_eq_some_iff.mp payload with ⟨text, rfl, _, _⟩
  exact ⟨text, rfl⟩

theorem encodeSingle_uint256 (fits : code < 2 ^ 256) :
    encodeSingle (.uint 256) (.int code) = .ok (Bytes.word code) := by
  have unchanged : AbiType.integerWord code = Bytes.word code := by
    have small : ((code : Int) % 2 ^ 256).toNat = code := by omega
    rw [AbiType.integerWord, small]
  have accepted : AbiType.fitsUnsigned 256 code = true := by
    simp only [AbiType.fitsUnsigned, Bool.and_eq_true, decide_eq_true_eq]
    omega
  refine encode_eq_ok_iff.mpr ⟨rfl, rfl, ?_⟩
  simp [AbiType.block?, AbiType.parts?, AbiType.payload?, accepted, unchanged, AbiType.layout?,
    AbiType.offsetsFit, AbiType.layout, AbiType.heads, AbiType.tails, AbiType.isDynamic]

/-- The message of a payload is read back. -/
theorem decodeRevertReason_message {text : String}
    (encoded : encodeSingle .string (.text text) = .ok body) :
    decodeRevertReason (messageSelector ++ body) = some text := by
  have decoded := decodeSingle_encodeSingle .string encoded
  simp only [AbiType.normalForm] at decoded
  simp [decodeRevertReason, messageSelector, decoded]

theorem decodeRevertReason_panic (fits : code < 2 ^ 256) :
    decodeRevertReason (panicSelector ++ Bytes.word code) = some (panicReason code) := by
  have constructed : (AbiType.uint 256).Constructed := .uint (.int 256) rfl
  have decoded := decodeSingle_encodeSingle constructed (encodeSingle_uint256 fits)
  simp only [AbiType.normalForm] at decoded
  simp [decodeRevertReason, panicSelector, messageSelector, decoded]

end Payloads

/-- Success and revert are never confused. The encoding of outputs is decoded, whatever would
explain a revert, and the payload of a message or a panic is reported with its reason, whatever the
outputs are. -/
theorem decodeCallResult_separates (function : ContractFunction) :
    (∀ decoder values block, function.outputs ≠ [] →
      (∀ type ∈ Param.types function.outputs, type.Constructed) →
      encode (Param.types function.outputs) values = .ok block →
      decodeCallResult function (.text (Data.ofBytes block)) decoder =
        .ok (Value.ofOutputs (AbiType.normalForms (Param.types function.outputs) values))) ∧
    ∀ decoder : RevertDecoder, decoder.Provided →
      (∀ message payload, encodeRevertReason message = .ok payload →
        ∃ text, message = .text text ∧ decodeRevertReason payload = some text ∧
          decodeCallResult function (.text (Data.ofBytes payload)) decoder =
            Outcome.fault (.callReverted (some text) (some payload))) ∧
      ∀ code < 2 ^ 256,
        decodeRevertReason (panicSelector ++ Bytes.word code) = some (panicReason code) ∧
          decodeCallResult function (.text (Data.ofBytes (panicSelector ++ Bytes.word code)))
              decoder =
            Outcome.fault (.callReverted (some (panicReason code))
              (some (panicSelector ++ Bytes.word code))) := by
  refine ⟨fun _ _ _ hasOutputs constructed encoded =>
    decodeCallResult_encode hasOutputs constructed encoded, ?_⟩
  intro decoder provided
  constructor
  · intro message payload encoded
    rcases encodeRevertReason_eq_ok_iff.mp encoded with ⟨body, encodedBody, rfl⟩
    rcases exists_text_of_encodeSingle encodedBody with ⟨text, rfl⟩
    have known := decodeRevertReason_message encodedBody
    have length : (messageSelector ++ body).length % Bytes.wordLength = selectorLength :=
      length_append_mod rfl (dvd_length_of_encodeSingle .string encodedBody)
    exact ⟨text, rfl, known, decodeCallResult_of_reason provided length known⟩
  · intro code fits
    have known := decodeRevertReason_panic fits
    have whole : Bytes.wordLength ∣ (Bytes.word code).length := by simp
    have length : (panicSelector ++ Bytes.word code).length % Bytes.wordLength = selectorLength :=
      length_append_mod rfl whole
    exact ⟨known, decodeCallResult_of_reason provided length known⟩

/-- Return data that starts with the selector of messages is no revert. -/
theorem decodeCallResult_separates_selector :
    let function : ContractFunction := { name := "kind", outputs := [{ type := .fixedBytes 4 }] }
    let decoder : RevertDecoder := ContractAbi.decodeError {}
    (function.outputs ≠ [] ∧ (∀ type ∈ Param.types function.outputs, type.Constructed) ∧
      ∃ block, encode (Param.types function.outputs) [.bytes messageSelector] = .ok block ∧
        block.take selectorLength = messageSelector ∧
          decodeCallResult function (.text (Data.ofBytes block)) decoder =
            .ok (.bytes messageSelector)) ∧
    (decoder.Provided ∧ ∃ payload, encodeRevertReason (.text "paused") = .ok payload ∧
      decodeCallResult function (.text (Data.ofBytes payload)) decoder =
        Outcome.fault (.callReverted (some "paused") (some payload))) ∧
    0x11 < 2 ^ 256 ∧
      decodeCallResult function (.text (Data.ofBytes (panicSelector ++ Bytes.word 0x11))) decoder =
        Outcome.fault (.callReverted (some "panic: 0x11 (arithmetic overflow or underflow)")
          (some (panicSelector ++ Bytes.word 0x11))) := by
  intro function decoder
  have hasOutputs : function.outputs ≠ [] := List.cons_ne_nil _ _
  have constructed : ∀ type ∈ Param.types function.outputs, type.Constructed := by
    simpa [function, Param.types] using AbiType.Constructed.fixedBytes (.int 4) rfl
  have encoded : encode (Param.types function.outputs) [.bytes messageSelector] = .ok _ := rfl
  have encodedMessage : encodeRevertReason (.text "paused") = .ok _ := rfl
  have provided : decoder.Provided := .ofInterface {}
  have small : 0x11 < 2 ^ 256 := by decide
  rcases decodeCallResult_separates function with ⟨results, reverts⟩
  rcases reverts decoder provided with ⟨messages, panics⟩
  rcases messages _ _ encodedMessage with ⟨text, shape, _, reported⟩
  cases shape
  have result := results decoder _ _ hasOutputs constructed encoded
  exact ⟨⟨hasOutputs, constructed, _, encoded, rfl, result⟩,
    ⟨provided, _, encodedMessage, reported⟩, small, (panics _ small).2⟩

end Reverts

end ContractClient
