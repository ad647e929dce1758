import ContractClient.Proofs.Abi.Calldata
import ContractClient.Proofs.Abi.Extent
import ContractClient.Proofs.Contract.RevertReport

/-!
# Explanations of reverts

An interface explains the payload of a revert: as a message or a panic if it is one, and else as the
custom error that was declared last with the selector of the payload, with the arguments of the
error or, where these are cut off, by its name alone (`ContractAbi.decodeError_classifies`). It
stumbles over nothing but errors that have an empty tuple as a parameter.
-/

namespace ContractClient

namespace ContractAbi

variable {abi : ContractAbi} {entries : List AbiEntry} {functions : List ContractFunction}
  {events : List ContractEvent} {errors : List ContractError} {error : ContractError}
  {payload block : Bytes} {message : Value} {values : List Value}

theorem decodeRevertReason_eq_none (noMessage : payload.take selectorLength ≠ messageSelector)
    (noPanic : payload.take selectorLength ≠ panicSelector) :
    decodeRevertReason payload = none := by
  rw [decodeRevertReason, ← selectorLength, if_neg noMessage, if_neg noPanic]

/-- A message is given back, whatever errors an interface declares. -/
theorem decodeError_message (encoded : encodeRevertReason message = .ok payload) :
    ∃ text, message = .text text ∧ abi.decodeError payload = .ok (some text) := by
  rcases encodeRevertReason_eq_ok_iff.mp encoded with ⟨body, encodedBody, rfl⟩
  rcases exists_text_of_encodeSingle encodedBody with ⟨text, rfl⟩
  refine ⟨text, rfl, ?_⟩
  rw [decodeError, decodeRevertReason_message encodedBody]

/-- An interface says nothing exactly about what is no message, no panic and no declared error. -/
theorem Declares.decodeError_eq_none_iff
    (declares : Declares entries functions events errors abi) :
    abi.decodeError payload = .ok none ↔
      decodeRevertReason payload = none ∧
        ∀ error ∈ errors, error.selector ≠ payload.take selectorLength := by
  rw [← declares.errorBySelector?_eq_none, decodeError]
  cases known : decodeRevertReason payload with
  | some reason => simp
  | none =>
      cases declared : abi.errorBySelector? (payload.take selectorLength) with
      | none => simp
      | some error =>
          simp only [reduceCtorEq, and_false, iff_false]
          split
          · simp
          · split <;> simp
          · simp

/-- The arguments of an error are read from all of its payload. -/
theorem decode_payload (constructed : ∀ type ∈ Param.types error.inputs, type.Constructed)
    (encoded : encode (Param.types error.inputs) values = .ok block) :
    error.decode (error.selector ++ block) =
      .ok (AbiType.normalForms (Param.types error.inputs) values) := by
  rw [ContractError.decode, ContractError.selector,
    if_neg (not_not_intro take_selectorOf_append)]
  exact decode_drop_selectorOf constructed encoded

/-- A payload with the selector of a declared error, with which no other error is declared later,
stands for that error. -/
theorem Declares.found_of_selector {before after : List ContractError}
    (declares : Declares entries functions events (before ++ error :: after) abi)
    (last : ∀ other ∈ after, other.selector ≠ error.selector)
    (noMessage : error.selector ≠ messageSelector) (noPanic : error.selector ≠ panicSelector)
    (starts : error.selector <+: payload) :
    abi.errorBySelector? (payload.take selectorLength) = some error ∧
      decodeRevertReason payload = none := by
  have selected : payload.take selectorLength = error.selector := take_eq_selectorOf_iff.mpr starts
  rw [selected]
  exact ⟨declares.errorBySelector?_last last,
    decodeRevertReason_eq_none (selected ▸ noMessage) (selected ▸ noPanic)⟩

theorem decodeError_whole (constructed : ∀ type ∈ Param.types error.inputs, type.Constructed)
    (declared : abi.errorBySelector? ((error.selector ++ block).take selectorLength) = some error)
    (unknown : decodeRevertReason (error.selector ++ block) = none)
    (encoded : encode (Param.types error.inputs) values = .ok block) :
    abi.decodeError (error.selector ++ block) =
      .ok (some (error.format (AbiType.normalForms (Param.types error.inputs) values))) := by
  simp only [decodeError, unknown, declared, decode_payload constructed encoded]

/-- From a part of the payload only the name of the error can be told. -/
theorem decodeError_part (constructed : ∀ type ∈ Param.types error.inputs, type.Constructed)
    (encoded : encode (Param.types error.inputs) values = .ok block) {part : Bytes}
    (starts : error.selector <+: part) (within : part <+: error.selector ++ block)
    (proper : part ≠ error.selector ++ block)
    (declared : abi.errorBySelector? (part.take selectorLength) = some error)
    (unknown : decodeRevertReason part = none) :
    abi.decodeError part = .ok (some error.name) := by
  rcases encode_eq_ok_iff.mp encoded with ⟨_, nonempty, _⟩
  have fine : ¬abi.Stumbles part := by
    rintro ⟨_, other, found, _, empty⟩
    cases declared.symm.trans found
    rw [← List.any_eq_true, nonempty] at empty
    cases empty
  cases decoded : error.decode part with
  | ok arguments =>
      rcases starts with ⟨rest, rfl⟩
      rw [ContractError.decode, ContractError.selector,
        if_neg (not_not_intro take_selectorOf_append), drop_selectorOf_append] at decoded
      have whole := eq_of_decode_part constructed encoded
        ((List.prefix_append_right_inj _).mp within) decoded
      exact absurd (congrArg (error.selector ++ ·) whole) proper
  | error failure =>
      rcases kind_of_decode_error unknown declared fine decoded with ⟨fault, rfl, kind⟩
      have caught : fault.kind.isA .decode = true := by
        rw [kind]
        rfl
      simp only [decodeError, unknown, declared, decoded, caught, if_true]

/-- What an interface says of the payloads of reverts (no payload is the empty one). It has an
explanation for every payload, or says that it has none, unless it stumbles. It has none exactly for
what is no message, no panic and no declared error. Messages are given back whatever errors are
declared. An error that is declared last with its selector is written with its arguments, and where
a part of them is missing, it is given by its name. -/
theorem decodeError_classifies (loaded : ofEntries entries = .ok abi) :
    ∃ errors, AbiEntry.declared "error" AbiEntry.toError entries = .ok errors ∧
      (∀ payload, (∃ reason, abi.decodeError payload = .ok reason) ↔ ¬abi.Stumbles payload) ∧
      (∀ payload, abi.Stumbles payload → abi.decodeError payload = Outcome.condition .badValue) ∧
      (∀ payload, abi.decodeError payload = .ok none ↔
        decodeRevertReason payload = none ∧
          ∀ error ∈ errors, error.selector ≠ payload.take selectorLength) ∧
      (∀ message payload, encodeRevertReason message = .ok payload →
        ∃ text, message = .text text ∧ abi.decodeError payload = .ok (some text)) ∧
      ∀ before error after, errors = before ++ error :: after →
        (∀ other ∈ after, other.selector ≠ error.selector) →
        error.selector ≠ messageSelector → error.selector ≠ panicSelector →
        ∀ values block, encode (Param.types error.inputs) values = .ok block →
          abi.decodeError (error.selector ++ block) =
            .ok (some (error.format (AbiType.normalForms (Param.types error.inputs) values))) ∧
          ∀ part, error.selector <+: part → part <+: error.selector ++ block →
            part ≠ error.selector ++ block → abi.decodeError part = .ok (some error.name) := by
  rcases declares_of_ofEntries loaded with ⟨functions, events, errors, declares⟩
  refine ⟨errors, declares.declaredErrors, fun payload => decodeError_eq_ok_iff,
    fun payload => decodeError_of_stumbles, fun payload => declares.decodeError_eq_none_iff,
    fun message payload => decodeError_message, ?_⟩
  rintro before error after rfl last noMessage noPanic values block encoded
  have constructed := declares.constructed_of_mem_errors
    (List.mem_append_right before List.mem_cons_self)
  constructor
  · rcases declares.found_of_selector last noMessage noPanic
      (List.prefix_append error.selector block) with ⟨declared, unknown⟩
    exact decodeError_whole constructed declared unknown encoded
  · intro part starts within proper
    rcases declares.found_of_selector last noMessage noPanic starts with
      ⟨declared, unknown⟩
    exact decodeError_part constructed encoded starts within proper declared unknown

/-- An error of two amounts. -/
def shortfall : ContractError where
  name := "InsufficientBalance"
  inputs := [{ name := "available", type := .uint 256 }, { name := "needed", type := .uint 256 }]

def shortfallEntry : AbiEntry :=
  .plain "error" "InsufficientBalance"
    [.mk "available" "uint256" false none, .mk "needed" "uint256" false none]

theorem toError_shortfallEntry : shortfallEntry.toError = .ok shortfall := by
  have constructed : (AbiType.uint 256).Constructed := .uint (.int 256) rfl
  have listed : (AbiType.uint 256).IsListedBy (ParamEntry.componentsValue none) := rfl
  have read : ∀ name, ParamEntry.toParam (.mk name "uint256" false none) =
      .ok { name, type := .uint 256 } :=
    fun name => ParamEntry.toParam_of_isListedBy constructed listed name false
  exact AbiEntry.toError_plain (.cons (read "available") (.cons (read "needed") .nil))

theorem declared_of_toError {entry : AbiEntry} (kind : entry.kind = "error")
    (loaded : entry.toError = .ok error) :
    ofEntries [entry] = .ok { errorsBySelector := [(error.selector, error)] } ∧
      AbiEntry.declared "error" AbiEntry.toError [entry] = .ok [error] := by
  constructor
  · rw [ofEntries, List.foldlM_cons, add_error kind loaded]
    rfl
  · have nothing : AbiEntry.declared "error" AbiEntry.toError [] = .ok [] := rfl
    exact AbiEntry.declared_concat_of_eq kind nothing loaded

set_option maxRecDepth 100000 in
theorem selector_shortfall : shortfall.selector = [0xcf, 0x47, 0x91, 0x81] := by
  decide +kernel

theorem decodeError_classifies_shortfall :
    let block := Bytes.word 1 ++ Bytes.word 2
    ∃ abi, ofEntries [shortfallEntry] = .ok abi ∧
      encode [.uint 256, .uint 256] [.int 1, .int 2] = .ok block ∧
      abi.decodeError (shortfall.selector ++ block) =
        .ok (some "InsufficientBalance(available=1, needed=2)") ∧
      abi.decodeError shortfall.selector = .ok (some "InsufficientBalance") ∧
      abi.decodeError [] = .ok none := by
  intro block
  rcases declared_of_toError rfl toError_shortfallEntry with ⟨loaded, declared⟩
  rcases decodeError_classifies loaded with ⟨errors, declaredErrors, _, _, silent, _, explained⟩
  cases declared.symm.trans declaredErrors
  have encoded : encode (Param.types shortfall.inputs) [.int 1, .int 2] = .ok block := rfl
  have noMessage : shortfall.selector ≠ messageSelector := by
    rw [selector_shortfall]
    decide
  have noPanic : shortfall.selector ≠ panicSelector := by
    rw [selector_shortfall]
    decide
  have longer : shortfall.selector ≠ shortfall.selector ++ block := by
    rw [ne_eq, List.self_eq_append_right]
    decide
  rcases explained [] shortfall [] rfl (List.forall_mem_nil _) noMessage noPanic _ _ encoded with
    ⟨whole, part⟩
  refine ⟨_, loaded, encoded, whole,
    part shortfall.selector List.prefix_rfl (List.prefix_append _ _) longer,
    (silent []).mpr ⟨rfl, ?_⟩⟩
  intro error member
  cases List.mem_singleton.mp member
  rw [selector_shortfall]
  decide

/-- The entry of an error with an empty tuple as a parameter. -/
def hollowEntry : AbiEntry :=
  .plain "error" "E" [.mk "" "tuple" false (some [])]

theorem toError_hollowEntry : hollowEntry.toError = .ok ContractInstance.hollow := by
  have read : ParamEntry.toParam (.mk "" "tuple" false (some [])) =
      .ok { type := .tuple [] } :=
    ParamEntry.toParam_of_isListedBy AbiType.constructed_emptyTuple ⟨[], rfl, trivial⟩ "" false
  exact AbiEntry.toError_plain (.cons read .nil)

/-- An interface that is loaded may fail to explain the selector of an error that it declares. -/
theorem not_explains_every_payload :
    ¬∀ (entries : List AbiEntry) (abi : ContractAbi) (payload : Bytes),
      ofEntries entries = .ok abi → ∃ reason, abi.decodeError payload = .ok reason := by
  intro explains
  have loaded := (declared_of_toError rfl toError_hollowEntry).1
  exact decodeError_eq_ok_iff.mp (explains _ _ ContractInstance.hollow.selector loaded)
    ContractInstance.stumbles_hollow

end ContractAbi

end ContractClient
