import ContractClient.Proofs.Contract.Call
import ContractClient.Proofs.Wire.Data

/-!
# Error objects

A node that does not execute a call answers with an error object: a code, a message and data. It
reports a revert by the code for it or by its message (`ErrorObject.ReportsRevert`), and the data
may carry the payload of the revert in one of three places (`Carries`). What a call concludes from
the object depends on nothing else (`Call.conclude_of_reportsRevert`, `Call.conclude_of_not`).

A decoder of an interface explains every payload or says that it cannot, with one exception: it
fails where the interface declares an error for the payload that has an empty tuple as a parameter
(`ContractAbi.decodeError_eq_ok_iff`).
-/

namespace ContractClient

/-- A text contains a word, in any case of its letters. -/
def Mentions (word text : String) : Prop :=
  ∃ part, part <:+: text.toList ∧ part.map Char.toLower = word.toList

theorem prefix_map_iff {word characters : List Char} :
    word <+: characters.map Char.toLower ↔
      ∃ part, part <+: characters ∧ part.map Char.toLower = word := by
  constructor
  · rintro ⟨rest, split⟩
    rcases List.map_eq_append_iff.mp split.symm with ⟨part, others, rfl, same, _⟩
    exact ⟨part, List.prefix_append part others, same⟩
  · rintro ⟨part, ⟨rest, rfl⟩, rfl⟩
    exact ⟨rest.map Char.toLower, (List.map_append).symm⟩

theorem Fault.mentions_iff {word text : String} :
    mentions word text.toList = true ↔ Mentions word text := by
  rw [Mentions]
  induction text.toList with
  | nil =>
      rw [mentions, String.isEmpty_iff]
      constructor
      · rintro rfl
        exact ⟨[], List.infix_rfl, rfl⟩
      · rintro ⟨part, inside, same⟩
        rw [List.infix_nil.mp inside] at same
        exact String.toList_inj.mp same.symm
  | cons character rest ih =>
      rw [mentions, Bool.or_eq_true, List.isPrefixOf_iff_prefix, prefix_map_iff, ih]
      constructor
      · rintro (⟨part, ahead, same⟩ | ⟨part, inside, same⟩)
        · exact ⟨part, List.infix_cons_iff.mpr (Or.inl ahead), same⟩
        · exact ⟨part, List.infix_cons_iff.mpr (Or.inr inside), same⟩
      · rintro ⟨part, inside, same⟩
        rcases List.infix_cons_iff.mp inside with ahead | later
        · exact Or.inl ⟨part, ahead, same⟩
        · exact Or.inr ⟨part, later, same⟩

/-- The object with which a node answers a call that it has not executed. -/
abbrev ErrorObject := Dict

/-- Data carries a payload: as a text, or in an object as its member `data`, or without one as its
member `result`. -/
inductive Carries (payload : Bytes) : Value → Prop where
  | plain {text : String} (writes : Writes text payload) : Carries payload (.text text)
  | data {entries : Dict} {text : String} (member : Dict.get? entries "data" = some (.text text))
      (writes : Writes text payload) : Carries payload (.dict entries)
  | result {entries : Dict} {text : String} (absent : Dict.get? entries "data" = none)
      (member : Dict.get? entries "result" = some (.text text)) (writes : Writes text payload) :
      Carries payload (.dict entries)

theorem revertPayload?_of_carries {payload : Bytes} {data : Value}
    (carries : Carries payload data) : revertPayload? data = some payload := by
  cases carries with
  | plain writes => exact Data.ofText?_of_writes writes
  | data member writes => simp [revertPayload?, member, Data.ofText?_of_writes writes]
  | result absent member writes =>
      simp [revertPayload?, absent, member, Value.ofOption, Data.ofText?_of_writes writes]

namespace ErrorObject

def code (error : ErrorObject) : Value :=
  (Dict.get? error "code").getD .null

/-- The message, which is a text in general; a node may leave it out. -/
def message (error : ErrorObject) : Value :=
  (Dict.get? error "message").getD (.text "unknown RPC error")

def data (error : ErrorObject) : Value :=
  (Dict.get? error "data").getD .null

/-- An error object reports a revert, by its code or by a word of its message. -/
def ReportsRevert (error : ErrorObject) : Prop :=
  error.code.equalsInt Fault.revertCode = true ∨
    ∃ text, error.message.displayed = .ok text ∧ Mentions "revert" text

/-- The fault that an error object stands for, given what its message shows. -/
def fault (error : ErrorObject) (text method : String) (params : List Value) : Fault :=
  .rpc text .rpc method (some (.list params)) error.code error.data

variable {error : ErrorObject} {text method : String} {params : List Value}

theorem isReportable_of_text (member : Dict.get? error "message" = some (.text text)) :
    (Value.dict error).IsReportable :=
  ⟨error, rfl, by rw [member]; rfl⟩

theorem exists_displayed (reportable : (Value.dict error).IsReportable) :
    ∃ text, error.message.displayed = .ok text := by
  rcases reportable with ⟨_, ⟨⟩, showable⟩
  exact ⟨error.message.display, if_pos showable⟩

/-- A question that is answered with an error object fails with the fault that it stands for. -/
theorem outcome_eq (shown : error.message.displayed = .ok text) (question : String × List Value) :
    (NodeAnswer.error error).outcome question =
      Outcome.fault (error.fault text question.1 question.2) := by
  let request : RpcRequest := ⟨0, question.1, question.2⟩
  exact (NodeAnswer.ownReply_response (.error error) request .null).symm.trans
    (Provider.ownReply_object shown)

theorem isRevert_fault_iff (shown : error.message.displayed = .ok text) :
    (error.fault text method params).isRevert = true ↔ error.ReportsRevert := by
  have split : (error.fault text method params).isRevert =
      (error.code.equalsInt Fault.revertCode || Fault.mentions "revert" text.toList) := rfl
  rw [split, Bool.or_eq_true, Fault.mentions_iff, ReportsRevert, shown]
  simp

theorem isA_fault : (error.fault text method params).kind.isA .rpc = true :=
  rfl

theorem revertPayload?_fault {payload : Bytes} (carries : Carries payload error.data) :
    (error.fault text method params).revertPayload? = some payload :=
  revertPayload?_of_carries carries

end ErrorObject

namespace Call

variable {error : ErrorObject} {function : ContractFunction} {decoder : RevertDecoder}
  {payload : Bytes} {question : String × List Value}

/-- What a call concludes from a revert is the explanation of its payload. -/
theorem conclude_of_reportsRevert (reportable : (Value.dict error).IsReportable)
    (reverts : error.ReportsRevert) (carries : Carries payload error.data) :
    conclude function decoder ((NodeAnswer.error error).outcome question) =
      decoder payload >>= fun reason => Outcome.fault (.callReverted reason (some payload)) := by
  rcases ErrorObject.exists_displayed reportable with ⟨text, shown⟩
  have isRevert : (error.fault text question.1 question.2).isRevert = true :=
    (ErrorObject.isRevert_fault_iff shown).mpr reverts
  rw [ErrorObject.outcome_eq shown]
  simp only [conclude, Outcome.fault, failureOf, ErrorObject.isA_fault, isRevert, Bool.and_self,
    if_true, Fault.toRevert, ErrorObject.revertPayload?_fault carries, Option.getD_some]
  cases decoder payload <;> rfl

/-- An error that is no revert stays as it is. -/
theorem conclude_of_not (reportable : (Value.dict error).IsReportable)
    (noRevert : ¬error.ReportsRevert) :
    ∃ fault, fault.kind = .rpc ∧ fault.payload = .rpc error.code error.data ∧
      conclude function decoder ((NodeAnswer.error error).outcome question) =
        Outcome.fault fault := by
  rcases ErrorObject.exists_displayed reportable with ⟨text, shown⟩
  have notRevert : (error.fault text question.1 question.2).isRevert = false := by
    rwa [← Bool.not_eq_true, ErrorObject.isRevert_fault_iff shown]
  refine ⟨error.fault text question.1 question.2, rfl, rfl, ?_⟩
  rw [ErrorObject.outcome_eq shown]
  simp [conclude, Outcome.fault, failureOf, notRevert]
  rfl

end Call

namespace ContractAbi

variable {abi : ContractAbi} {payload : Bytes}

/-- An interface declares an error for a payload that is no message and no panic, and the error has
an empty tuple as a parameter, so that its arguments are not decoded. -/
def Stumbles (abi : ContractAbi) (payload : Bytes) : Prop :=
  decodeRevertReason payload = none ∧
    ∃ error, abi.errorBySelector? (payload.take selectorLength) = some error ∧
      error.selector = payload.take selectorLength ∧
        ∃ type ∈ Param.types error.inputs, type.isEmptyTuple = true

theorem decodeError_of_stumbles (stumbles : abi.Stumbles payload) :
    abi.decodeError payload = Outcome.condition .badValue := by
  rcases stumbles with ⟨unknown, error, declared, selector, empty⟩
  have undecoded : error.decode payload = Outcome.condition .badValue := by
    rw [ContractError.decode, if_neg (not_not_intro selector.symm), decode,
      if_pos (List.any_eq_true.mpr empty)]
  simp only [decodeError, unknown, declared, undecoded]
  rfl

/-- Apart from empty tuples, nothing but the payload keeps the arguments of an error from being
decoded. -/
theorem kind_of_decode_error {error : ContractError} {failure : Failure}
    (unknown : decodeRevertReason payload = none)
    (declared : abi.errorBySelector? (payload.take selectorLength) = some error)
    (fine : ¬abi.Stumbles payload) (failed : error.decode payload = .error failure) :
    ∃ fault, failure = .fault fault ∧ fault.kind = .decode := by
  rw [ContractError.decode] at failed
  split at failed
  · cases failed
    exact ⟨_, rfl, rfl⟩
  · next selector =>
      have nonempty : (Param.types error.inputs).any AbiType.isEmptyTuple = false := by
        rw [Bool.eq_false_iff]
        intro empty
        exact fine ⟨unknown, error, declared, (not_not.mp selector).symm, List.any_eq_true.mp empty⟩
      simp only [decode, nonempty, Bool.false_eq_true, if_false] at failed
      split at failed
      · cases failed
      · cases failed
        exact ⟨_, rfl, rfl⟩

/-- An interface explains a payload, or says that it cannot, unless it stumbles over it. -/
theorem decodeError_eq_ok_iff :
    (∃ reason, abi.decodeError payload = .ok reason) ↔ ¬abi.Stumbles payload := by
  constructor
  · rintro ⟨reason, explained⟩ stumbles
    cases explained.symm.trans (decodeError_of_stumbles stumbles)
  · intro fine
    rw [decodeError]
    split
    · exact ⟨_, rfl⟩
    · next unknown =>
        split
        · exact ⟨_, rfl⟩
        · next error declared =>
            cases decoded : error.decode payload with
            | ok arguments => exact ⟨_, rfl⟩
            | error failure =>
                rcases kind_of_decode_error unknown declared fine decoded with
                  ⟨fault, rfl, kind⟩
                have caught : fault.kind.isA .decode = true := by rw [kind]; rfl
                exact ⟨some error.name, if_pos caught⟩

end ContractAbi

end ContractClient
