import ContractClient.Contract.Call
import ContractClient.Proofs.Batch.Answers
import Mathlib.Data.List.Forall2

/-!
# Calls and their answers

A node answers a question with a result or with an error object (`NodeAnswer`), whether it is asked
alone or in a batch (`Label.AnsweredBy`). `Call.execute_inv` says what a call does then: either it
is refused before anything is sent, or it asks one question and concludes from the answer.
-/

namespace ContractClient

/-- What a node answers a question with: a result, or an error object. -/
inductive NodeAnswer where
  | result (value : Value)
  | error (entries : Dict)

/-- A node answers questions, each of which is a method with parameters. -/
abbrev Node := String × List Value → NodeAnswer

namespace NodeAnswer

/-- The response that carries an answer. -/
def response (answer : NodeAnswer) (id : Value) : RpcResponse :=
  match answer with
  | result value => { id, result := value }
  | error entries => { id, error := .dict entries }

/-- What a question comes to by an answer. -/
def outcome (answer : NodeAnswer) (question : String × List Value) : Outcome Value :=
  (answer.response .null).unwrap question.1 (some (.list question.2))

/-- An answer is a result, or an error with a message that can be shown. -/
def IsReportable : NodeAnswer → Prop
  | result _ => True
  | error entries => (Value.dict entries).IsReportable

@[simp]
theorem id_response (answer : NodeAnswer) (id : Value) : (answer.response id).id = id := by
  cases answer <;> rfl

theorem ownReply_response (answer : NodeAnswer) (request : RpcRequest) (id : Value) :
    Batch.ownReply request (answer.response id) = answer.outcome request.question := by
  cases answer <;> rfl

theorem isReportable_iff (answer : NodeAnswer) (id : Value) :
    answer.IsReportable ↔
      ((answer.response id).isError = true → (answer.response id).error.IsReportable) := by
  cases answer with
  | result value => simp [IsReportable, response, RpcResponse.isError]
  | error entries => simp [IsReportable, response, RpcResponse.isError]

end NodeAnswer

/-- A response carries the answer of a node to a request, and the number of the request or none. -/
def RpcRequest.AnsweredBy (node : Node) (request : RpcRequest) (response : RpcResponse) : Prop :=
  Batch.echoes request response = true ∧
    response = (node request.question).response response.id

namespace Label

/-- What can be seen is no question, or a question with the answer of a node. -/
inductive AnsweredBy (node : Node) : Label → Prop where
  | told {now : Rat} {event : Event} : AnsweredBy node (.told now event)
  | call {method : String} {params : List Value} {start stop : Rat} :
      AnsweredBy node (.asked (.call method params) start stop
        (.answer ((node (method, params)).outcome (method, params))))
  | batch {requests : List RpcRequest} {responses : List RpcResponse} {start stop : Rat}
      (answers : List.Forall₂ (RpcRequest.AnsweredBy node) requests responses) :
      AnsweredBy node (.asked (.batch requests) start stop (.answer (.ok responses)))

theorem AnsweredBy.of_isTold {node : Node} {label : Label} (told : label.IsTold) :
    label.AnsweredBy node := by
  rcases told with ⟨_, _, rfl⟩
  exact .told

/-- The questions that a node is asked, alone or in a batch. -/
def questions : Label → List (String × List Value)
  | asked (.call method params) _ _ _ => [(method, params)]
  | asked (.batch requests) _ _ _ => requests.map RpcRequest.question
  | unanswered (.call method params) _ => [(method, params)]
  | unanswered (.batch requests) _ => requests.map RpcRequest.question
  | _ => []

end Label

/-- All questions that a node is asked during a run, in order. -/
def transmitted (labels : List Label) : List (String × List Value) :=
  labels.flatMap Label.questions

theorem transmitted_append (before after : List Label) :
    transmitted (before ++ after) = transmitted before ++ transmitted after :=
  List.flatMap_append

theorem transmitted_of_told {labels : List Label} (told : ∀ label ∈ labels, label.IsTold) :
    transmitted labels = [] := by
  rw [transmitted, List.flatMap_eq_nil_iff]
  intro label member
  rcases told label member with ⟨_, _, rfl⟩
  rfl

section Answered

open Activity

variable {node : Node} {start stop : Rat} {labels : List Label}

theorem send_answered_inv {method : String} {params : List Value} {ending : Ending Value}
    (run : Run (Transport.direct.send method params) start labels ending stop)
    (answered : ∀ label ∈ labels, label.AnsweredBy node) :
    ending = .ended ((node (method, params)).outcome (method, params)) ∧
      transmitted labels = [(method, params)] := by
  cases run with
  | stuck endless => cases answered _ List.mem_cons_self
  | ask early closes next =>
      cases answered _ List.mem_cons_self
      rcases Run.done_inv next with ⟨rfl, rfl, _⟩
      exact ⟨rfl, rfl⟩

theorem sendBatch_answered_inv {requests : List RpcRequest} {ending : Ending (List RpcResponse)}
    (run : Run (Transport.direct.sendBatch requests) start labels ending stop)
    (answered : ∀ label ∈ labels, label.AnsweredBy node) :
    ∃ responses, List.Forall₂ (RpcRequest.AnsweredBy node) requests responses ∧
      ending = .ended (.ok responses) ∧
      transmitted labels = requests.map RpcRequest.question := by
  cases run with
  | stuck endless => cases answered _ List.mem_cons_self
  | ask early closes next =>
      cases answered _ List.mem_cons_self with
      | batch answers =>
          rcases Run.done_inv next with ⟨rfl, rfl, _⟩
          exact ⟨_, answers, rfl, List.append_nil _⟩

end Answered

namespace Call

open Activity

variable {node : Node} {decoder : RevertDecoder} {function : ContractFunction}
  {arguments : List Value} {recipient : Value} {options : CallOptions} {start stop : Rat}
  {labels : List Label} {ending : Ending Value}

/-- The refusal of a call that sends value to a function that takes none. -/
def notPayable (function : ContractFunction) : Fault :=
  .validation (function.canonical ++ " is not payable")

/-- A call sends value to a function that takes none. -/
def IsUnpayable (function : ContractFunction) (options : CallOptions) : Prop :=
  options.value.isTruthy = true ∧ function.isPayable = false

/-- The parameters of a call that is made at once, unless it is refused before. -/
def checkedParams (function : ContractFunction) (arguments : List Value) (recipient : Value)
    (options : CallOptions) : Outcome (List Value) :=
  if options.value.isTruthy && !function.isPayable then Outcome.fault (notPayable function)
  else paramsOf function arguments recipient options

theorem checkedParams_of_isUnpayable (unpayable : IsUnpayable function options) :
    checkedParams function arguments recipient options = Outcome.fault (notPayable function) := by
  simp [checkedParams, unpayable.1, unpayable.2]

theorem checkedParams_of_not (payable : ¬IsUnpayable function options) :
    checkedParams function arguments recipient options =
      paramsOf function arguments recipient options := by
  rw [checkedParams, if_neg]
  simpa [IsUnpayable] using payable

theorem noteRevert_inv {failure : Failure} {ending : Ending Unit}
    (run : Run (noteRevert function failure) start labels ending stop) :
    ending = .ended (.ok ()) ∧ transmitted labels = [] := by
  have silent : ∀ {labels}, Run (pure () : Activity Unit) start labels ending stop →
      ending = .ended (.ok ()) ∧ transmitted labels = [] := by
    intro labels run
    rcases Run.done_inv run with ⟨rfl, ended, _⟩
    exact ⟨ended, rfl⟩
  cases failure with
  | fault fault =>
      rw [noteRevert] at run
      split at run
      · rcases Run.tell_inv run with ⟨_, next, rfl⟩
        rcases silent next with ⟨ended, nothing⟩
        exact ⟨ended, nothing⟩
      · exact silent run
  | invalidModel issues => exact silent run
  | condition met text => exact silent run

/-- What follows the answer to a call. -/
def concluding (function : ContractFunction) (decoder : RevertDecoder) :
    Outcome Value → Activity Value
  | .ok result => Activity.ofOutcome (decodeCallResult function result decoder)
  | .error failure => do
    let failure ← failureOf decoder failure
    noteRevert function failure
    Activity.fail failure

theorem execute_eq :
    execute .direct decoder function arguments recipient options =
      liftM (checkedParams function arguments recipient options) >>= fun params =>
        (Transport.direct.send "eth_call" params).andThen (concluding function decoder) := by
  rw [execute, checkedParams]
  split <;> rfl

/-- What follows the answer concludes from it and asks nothing. -/
theorem concluding_inv {result : Outcome Value}
    (run : Run (concluding function decoder result) start labels ending stop) :
    ending = .ended (conclude function decoder result) ∧ transmitted labels = [] := by
  cases result with
  | ok value =>
      rcases Run.done_inv run with ⟨rfl, rfl, _⟩
      exact ⟨rfl, rfl⟩
  | error failure =>
      rw [conclude]
      rcases Run.lift_bind_inv run with ⟨final, found, run⟩ | ⟨other, found, rfl, rfl⟩
      · rcases Run.bind_inv run with
          ⟨_, before, _, after, noting, last, rfl⟩ | ⟨_, noting, abandons⟩
        · rcases Run.done_inv last with ⟨rfl, rfl, _⟩
          rw [transmitted_append, (noteRevert_inv noting).2, found]
          exact ⟨rfl, rfl⟩
        · rw [(noteRevert_inv noting).1] at abandons
          cases abandons
      · rw [found]
        exact ⟨rfl, rfl⟩

theorem noteRevert_run (function : ContractFunction) (failure : Failure) (moment : Rat) :
    ∃ notes, Run (noteRevert function failure) moment notes (.ended (.ok ())) moment ∧
      ∀ label ∈ notes, label.IsTold := by
  have silent : ∃ notes, Run (pure () : Activity Unit) moment notes (.ended (.ok ())) moment ∧
      ∀ label ∈ notes, label.IsTold := ⟨[], .done, List.forall_mem_nil _⟩
  cases failure with
  | fault fault =>
      rw [noteRevert]
      split
      · exact ⟨_, .tell .done, List.forall_mem_singleton.mpr ⟨_, _, rfl⟩⟩
      · exact silent
  | invalidModel issues => exact silent
  | condition met text => exact silent

theorem concluding_run (function : ContractFunction) (decoder : RevertDecoder)
    (result : Outcome Value) (moment : Rat) :
    ∃ notes ending, Run (concluding function decoder result) moment notes ending moment ∧
      ∀ label ∈ notes, label.IsTold := by
  cases result with
  | ok value => exact ⟨[], _, .done, List.forall_mem_nil _⟩
  | error failure =>
      cases found : failureOf decoder failure with
      | error other =>
          refine ⟨[], .ended (.error other), ?_, List.forall_mem_nil _⟩
          rw [concluding, found]
          exact .done
      | ok final =>
          rcases noteRevert_run function final moment with ⟨notes, noting, told⟩
          refine ⟨notes ++ [], .ended (.error final), ?_, by rwa [List.append_nil]⟩
          rw [concluding, found]
          exact noting.andThen .done

/-- How a call ends that is made at once, and what it asks: it is refused for its parameters, or it
asks one question and concludes from the answer of the node. -/
inductive Executed (node : Node) (decoder : RevertDecoder) (function : ContractFunction) :
    Outcome (List Value) → Ending Value → List (String × List Value) → Prop where
  | refused {failure : Failure} :
      Executed node decoder function (.error failure) (.ended (.error failure)) []
  | concluded {params : List Value} :
      Executed node decoder function (.ok params)
        (.ended (conclude function decoder
          ((node ("eth_call", params)).outcome ("eth_call", params))))
        [("eth_call", params)]

theorem execute_inv
    (run : Run (execute .direct decoder function arguments recipient options) start labels ending
      stop)
    (answered : ∀ label ∈ labels, label.AnsweredBy node) :
    Executed node decoder function (checkedParams function arguments recipient options) ending
      (transmitted labels) := by
  rw [execute_eq] at run
  rcases Run.lift_bind_inv run with ⟨params, checked, run⟩ | ⟨failure, checked, rfl, rfl⟩
  · rw [checked]
    rcases Run.andThen_inv run with ⟨reply, before, middle, after, sending, follows, rfl⟩
    rw [List.forall_mem_append] at answered
    rcases send_answered_inv sending answered.1 with ⟨rfl, asked⟩
    cases follows with
    | ended last =>
        rcases concluding_inv last with ⟨rfl, nothing⟩
        rw [transmitted_append, asked, nothing]
        exact .concluded
  · rw [checked]
    exact .refused

/-- Whatever a node answers, a call that is made at once can be made. -/
theorem execute_run (node : Node) (decoder : RevertDecoder) (function : ContractFunction)
    (arguments : List Value) (recipient : Value) (options : CallOptions) (start : Rat) :
    ∃ labels ending,
      Run (execute .direct decoder function arguments recipient options) start labels ending start ∧
      ∀ label ∈ labels, label.AnsweredBy node := by
  rw [execute_eq]
  cases checkedParams function arguments recipient options with
  | error failure => exact ⟨[], .ended (.error failure), .done, List.forall_mem_nil _⟩
  | ok params =>
      let question := ("eth_call", params)
      rcases concluding_run function decoder ((node question).outcome question) start with
        ⟨notes, ending, run, told⟩
      refine ⟨_ :: notes, ending, .ask (by simp) (@Closes.atOnce start (.call _ _) _ rfl) run, ?_⟩
      rw [List.forall_mem_cons]
      exact ⟨.call, fun label member => .of_isTold (told label member)⟩

end Call

end ContractClient
