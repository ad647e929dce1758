import ContractClient.Proofs.Activity.Call
import ContractClient.Proofs.Batch.Resolution

/-!
# Histories of a batch

Tasks enqueue requests, drop what waits and start flushes in any order, and a flush ends at any time
after it started, in any way: other tasks go on while it waits for its reply. `Batch.History` is a
batch together with what has happened to it, `Batch.History.perform` is one thing that happens, and
`Batch.History.run` is any number of them. The history of a run keeps more than the program does:
what was added, taken and dropped, and the replies. What was added is read off what was asked for,
not off the batch.

A flush of the program begins and ends as a flush of a history does. It asks what its transport asks
to send the requests, and gets whatever the transport comes to (`Batch.exchange_mirrors`,
`Batch.History.flush_mirrors`).
-/

namespace ContractClient

/-- What stands in a slot: a method with its parameters, or nothing for what had failed before. -/
def BatchSlot.content (slot : BatchSlot) : Option (String × List Value) :=
  slot.request.map fun request => (request.method, request.params)

namespace Batch

/-- A flush: the slots it took, the requests among them, and the reply that it ended with. -/
structure Flush where
  slots : List BatchSlot
  requests : List SentRequest
  reply : Option (Outcome (List RpcResponse)) := none

/-- Whether a flush waits for its reply. A flush that found no requests ends at once. -/
def Flush.isOpen (flush : Flush) : Bool :=
  !flush.requests.isEmpty && flush.reply.isNone

/-- A batch and what has happened to it: all slots that were added, the handles of those that had
failed before, the flushes, and the slots that each discard dropped. -/
structure History where
  batch : Batch := {}
  added : List BatchSlot := []
  failed : List Nat := []
  flushes : List Flush := []
  discards : List (List BatchSlot) := []

/-- Something that happens to a batch. -/
inductive Action where
  | enqueue (method : String) (params : List Value)
  | enqueueFailed (failure : Failure)
  | discard
  | beginFlush
  /-- The flush with a number, counted from zero, gets its reply. -/
  | endFlush (number : Nat) (reply : Outcome (List RpcResponse))

namespace History

/-- What a history becomes by something that happens. Only an open flush can get a reply. -/
def perform (history : History) : Action → History
  | .enqueue method params =>
    let (batch, handle) := history.batch.enqueue method params
    let request := { id := history.batch.nextId, method, params }
    { history with batch, added := history.added ++ [{ handle, request := some request }] }
  | .enqueueFailed failure =>
    let (batch, handle) := history.batch.enqueueFailed failure
    { history with
      batch
      added := history.added ++ [{ handle, request := none }]
      failed := history.failed ++ [handle] }
  | .discard =>
    let (batch, _) := history.batch.discard
    { history with batch, discards := history.discards ++ [history.batch.pending] }
  | .beginFlush =>
    let (batch, requests) := history.batch.take
    { history with
      batch, flushes := history.flushes ++ [{ slots := history.batch.pending, requests }] }
  | .endFlush number reply => match history.flushes[number]? with
    | some flush =>
      if flush.isOpen then
        { history with
          batch := history.batch.resolve (conclude flush.requests reply).1
          flushes := history.flushes.set number { flush with reply := some reply } }
      else history
    | none => history

/-- What a history becomes by everything that happens, in the order in which it happens. -/
def performAll (history : History) (actions : List Action) : History :=
  actions.foldl perform history

/-- The history of everything that happens to a new batch. -/
def run (actions : List Action) : History :=
  performAll {} actions

/-- Where slots are: what waits, what each flush took, and what each discard dropped. -/
def places (history : History) : List (List BatchSlot) :=
  history.batch.pending :: (history.flushes.map Flush.slots ++ history.discards)

section Steps

variable (history : History)

theorem perform_enqueue (method : String) (params : List Value) :
    history.perform (.enqueue method params) =
      let slot : BatchSlot := {
        handle := history.batch.handles.length
        request := some { id := history.batch.nextId, method, params } }
      { history with
        batch := {
          nextId := history.batch.nextId + 1
          pending := history.batch.pending ++ [slot]
          handles := history.batch.handles ++ [.waiting] }
        added := history.added ++ [slot] } := by
  rfl

theorem perform_enqueueFailed (failure : Failure) :
    history.perform (.enqueueFailed failure) =
      let slot : BatchSlot := { handle := history.batch.handles.length, request := none }
      { history with
        batch := { history.batch with
          pending := history.batch.pending ++ [slot]
          handles := history.batch.handles ++ [.resolved (.error failure)] }
        added := history.added ++ [slot]
        failed := history.failed ++ [slot.handle] } := by
  rfl

theorem run_concat (actions : List Action) (action : Action) :
    run (actions ++ [action]) = (run actions).perform action := by
  rw [run, performAll, List.foldl_append]
  rfl

theorem batch_perform_endFlush {number : Nat} {flush : Flush}
    (found : history.flushes[number]? = some flush) (isOpen : flush.isOpen = true)
    (reply : Outcome (List RpcResponse)) :
    (history.perform (.endFlush number reply)).batch =
      history.batch.resolve (conclude flush.requests reply).1 := by
  simp [perform, found, isOpen]

/-- Only an open flush gets a reply; nothing else happens at the end of a flush. -/
theorem perform_endFlush (number : Nat) (reply : Outcome (List RpcResponse)) :
    history.perform (.endFlush number reply) = history ∨
      ∃ flush, history.flushes[number]? = some flush ∧ flush.isOpen = true ∧
        history.perform (.endFlush number reply) =
          { history with
            batch := history.batch.resolve (conclude flush.requests reply).1
            flushes := history.flushes.set number { flush with reply := some reply } } := by
  cases found : history.flushes[number]? with
  | none => exact Or.inl (by simp [perform, found])
  | some flush =>
      cases isOpen : flush.isOpen with
      | false => exact Or.inl (by simp [perform, found, isOpen])
      | true => exact Or.inr ⟨flush, rfl, isOpen, by simp [perform, found, isOpen]⟩

theorem length_handles_endFlush (number : Nat) (reply : Outcome (List RpcResponse)) :
    (history.perform (.endFlush number reply)).batch.handles.length =
      history.batch.handles.length := by
  rcases perform_endFlush history number reply with same | ⟨flush, _, _, ended⟩
  · rw [same]
  · rw [ended, length_handles_resolve]

/-- What holds of a new batch and is kept by everything that happens holds at every time. -/
theorem run_induction {P : History → Prop} (new : P {})
    (step : ∀ history action, P history → P (history.perform action)) (actions : List Action) :
    P (run actions) := by
  suffices kept : ∀ history, P history → P (history.performAll actions) from kept {} new
  induction actions with
  | nil => exact fun _ holds => holds
  | cons action actions ih =>
      intro history holds
      exact ih (history.perform action) (step history action holds)

end Steps

end History

section Exchanges

variable {transport : Transport} {requests : List SentRequest} {start stop : Rat}
  {labels : List Label}

open Activity

/-- How an exchange ends when its transport has ended: with what the reply concludes. -/
inductive Concludes (requests : List SentRequest) :
    Ending (List RpcResponse) → Ending (Resolutions × Outcome Nat) → Prop where
  | ended {reply : Outcome (List RpcResponse)} :
      Concludes requests (.ended reply) (.ended (.ok (conclude requests reply)))
  | stuck : Concludes requests .stuck .stuck
  | unfinished : Concludes requests .unfinished .unfinished

theorem noteReply_inv {reply : Outcome (List RpcResponse)} {ending : Ending Unit}
    (run : Run (noteReply requests reply) start labels ending stop) :
    ending = .ended (.ok ()) ∧ stop = start ∧ ∀ label ∈ labels, label.IsTold := by
  have noted : ∀ severity logger message fields, ∀ {labels},
      Run (Activity.note severity logger message fields) start labels ending stop →
        ending = .ended (.ok ()) ∧ stop = start ∧ ∀ label ∈ labels, label.IsTold := by
    intro severity logger message fields labels run
    rcases Run.tell_inv run with ⟨after, next, rfl⟩
    rcases Run.done_inv next with ⟨rfl, ended, sameTime⟩
    refine ⟨ended, sameTime, fun label member => ?_⟩
    rw [List.mem_singleton.mp member]
    exact ⟨_, _, rfl⟩
  have silent : ∀ {labels}, Run (pure () : Activity Unit) start labels ending stop →
      ending = .ended (.ok ()) ∧ stop = start ∧ ∀ label ∈ labels, label.IsTold := by
    intro labels run
    rcases Run.done_inv run with ⟨rfl, ended, sameTime⟩
    exact ⟨ended, sameTime, List.forall_mem_nil _⟩
  cases reply with
  | error failure =>
      rw [noteReply] at run
      split at run
      · exact noted _ _ _ _ run
      · exact silent run
  | ok responses =>
      rw [noteReply] at run
      split at run
      · exact noted _ _ _ _ run
      · exact silent run

theorem noteReply_run (requests : List SentRequest) (reply : Outcome (List RpcResponse))
    (moment : Rat) :
    ∃ notes, Run (noteReply requests reply) moment notes (.ended (.ok ())) moment ∧
      ∀ label ∈ notes, label.IsTold := by
  have noted : ∀ severity logger message fields, ∃ notes,
      Run (Activity.note severity logger message fields) moment notes (.ended (.ok ())) moment ∧
        ∀ label ∈ notes, label.IsTold := by
    intro severity logger message fields
    exact ⟨_, .tell .done, List.forall_mem_singleton.mpr ⟨_, _, rfl⟩⟩
  have silent : ∃ notes, Run (pure () : Activity Unit) moment notes (.ended (.ok ())) moment ∧
      ∀ label ∈ notes, label.IsTold := ⟨[], .done, List.forall_mem_nil _⟩
  cases reply with
  | error failure =>
      rw [noteReply]
      split
      · exact noted _ _ _ _
      · exact silent
  | ok responses =>
      rw [noteReply]
      split
      · exact noted _ _ _ _
      · exact silent

/-- However a transport ends, the exchange ends with it. -/
theorem exchange_run {sent : List Label} {reply : Ending (List RpcResponse)}
    {ending : Ending (Resolutions × Outcome Nat)} (nonempty : requests.isEmpty = false)
    (sends : Run (transport.sendBatch (requests.map Prod.snd)) start sent reply stop)
    (concludes : Concludes requests reply ending) :
    ∃ event notes, Run (exchange transport requests) start (.told start event :: (sent ++ notes))
      ending stop ∧ ∀ label ∈ notes, label.IsTold := by
  rw [exchange, nonempty]
  cases concludes with
  | @ended reply =>
      rcases noteReply_run requests reply stop with ⟨notes, noting, told⟩
      have attempted : Run (transport.sendBatch (requests.map Prod.snd)).attempt start (sent ++ [])
        (.ended (.ok reply)) stop := sends.andThen .done
      have concluding := noting.bind_pure fun _ => conclude requests reply
      refine ⟨_, notes, .tell ?_, told⟩
      rw [← List.append_nil sent]
      exact attempted.andThen concluding
  | stuck =>
      have attempted : Run (transport.sendBatch (requests.map Prod.snd)).attempt start sent
        .stuck stop := sends.andThen_of_noOutcome (Or.inl ⟨rfl, rfl⟩)
      refine ⟨_, [], .tell ?_, List.forall_mem_nil _⟩
      rw [List.append_nil]
      exact attempted.andThen_of_noOutcome (Or.inl ⟨rfl, rfl⟩)
  | unfinished =>
      have attempted : Run (transport.sendBatch (requests.map Prod.snd)).attempt start sent
        .unfinished stop := sends.andThen_of_noOutcome (Or.inr ⟨rfl, rfl⟩)
      refine ⟨_, [], .tell ?_, List.forall_mem_nil _⟩
      rw [List.append_nil]
      exact attempted.andThen_of_noOutcome (Or.inr ⟨rfl, rfl⟩)

/-- Without requests nothing is sent; otherwise an exchange ends as the reply of the transport
says, and nothing else is asked. -/
theorem exchange_inv {ending : Ending (Resolutions × Outcome Nat)}
    (run : Run (exchange transport requests) start labels ending stop) :
    (requests = [] ∧ labels = [] ∧ ending = .ended (.ok ([], .ok 0))) ∨
      ∃ event sent notes reply,
        Run (transport.sendBatch (requests.map Prod.snd)) start sent reply stop ∧
          Concludes requests reply ending ∧ labels = .told start event :: (sent ++ notes) ∧
            ∀ label ∈ notes, label.IsTold := by
  rw [exchange] at run
  split at run
  · next empty =>
      rcases Run.done_inv run with ⟨rfl, rfl, _⟩
      exact Or.inl ⟨List.isEmpty_iff.mp empty, rfl, rfl⟩
  · rcases Run.emit_bind_inv run with ⟨_, sending, rfl⟩
    rcases Run.andThen_inv sending with ⟨_, _, moment, notes, attempting, concluding, rfl⟩
    rcases Run.andThen_inv attempting with ⟨reply, sent, replied, before, sends, follows, rfl⟩
    have concludes : Concludes requests reply ending ∧ stop = replied ∧
        ∀ label ∈ before ++ notes, label.IsTold := by
      cases follows with
      | ended attempted =>
          rcases Run.done_inv attempted with ⟨rfl, rfl, rfl⟩
          cases concluding with
          | ended noting =>
              rcases Run.bind_pure_inv noting with ⟨_, early, changed⟩
              rcases noteReply_inv early with ⟨rfl, sameTime, told⟩
              rcases changed with ⟨_, _, rfl⟩ | abandons
              · exact ⟨.ended, sameTime, told⟩
              · cases abandons
      | stuck =>
          cases concluding
          exact ⟨.stuck, rfl, List.forall_mem_nil _⟩
      | unfinished =>
          cases concluding
          exact ⟨.unfinished, rfl, List.forall_mem_nil _⟩
    rcases concludes with ⟨concludes, rfl, told⟩
    exact Or.inr ⟨_, sent, before ++ notes, reply, sends, concludes,
      by rw [List.append_assoc], told⟩

/-- An exchange asks what its transport asks to send the requests, and ends with what the reply
concludes. -/
theorem exchange_mirrors (nonempty : requests ≠ []) :
    (exchange transport requests).Mirrors (transport.sendBatch (requests.map Prod.snd))
      (Concludes requests) := by
  intro start stop asked ending
  have sameQueries : ∀ {event sent notes}, (∀ label ∈ notes, label.IsTold) →
      queries (.told start event :: (sent ++ notes)) = queries sent := by
    intro event sent notes told
    have quiet := queries_of_told told
    change queries (sent ++ notes) = queries sent
    rw [queries_append, quiet, List.append_nil]
  constructor
  · rintro ⟨labels, run, rfl⟩
    rcases exchange_inv run with
      ⟨empty, _⟩ | ⟨event, sent, notes, reply, sends, concludes, rfl, told⟩
    · exact absurd empty nonempty
    · exact ⟨sent, reply, sends, (sameQueries told).symm, concludes⟩
  · rintro ⟨sent, reply, sends, rfl, concludes⟩
    rcases exchange_run (by simpa using nonempty) sends concludes with ⟨event, notes, run, told⟩
    exact ⟨_, run, sameQueries told⟩

/-- A flush takes what waits, exchanges it, and resolves the handles. -/
theorem flush_inv {batch : Batch} {ending : Ending (Batch × Outcome Nat)}
    (run : Run (batch.flush transport) start labels ending stop) :
    ∃ exchanged, Run (exchange transport (sentRequests batch.pending)) start labels exchanged stop ∧
      ((∃ result, exchanged = .ended (.ok result) ∧
          ending = .ended (.ok (batch.take.1.resolve result.1, result.2))) ∨
        Abandons exchanged ending) :=
  Run.bind_pure_inv run

namespace History

variable (history : History)

/-- How a flush of the program ends when its transport has ended: with what becomes of the batch
when a flush begins and then gets the reply. -/
inductive Flushes : Ending (List RpcResponse) → Ending (Batch × Outcome Nat) → Prop where
  | ended {reply : Outcome (List RpcResponse)} :
      Flushes (.ended reply) (.ended (.ok
        (((history.perform .beginFlush).perform (.endFlush history.flushes.length reply)).batch,
          (conclude (sentRequests history.batch.pending) reply).2)))
  | stuck : Flushes .stuck .stuck
  | unfinished : Flushes .unfinished .unfinished

variable {history}

theorem flush_eq_of_nil (nothing : sentRequests history.batch.pending = []) :
    history.batch.flush transport = pure ((history.perform .beginFlush).batch, .ok 0) := by
  have took : history.batch.take = ({ history.batch with pending := [] }, []) := by
    rw [take, nothing]
  rw [flush, perform, took]
  rfl

/-- The flush that begins last is open if there is something to send. -/
theorem isOpen_beginFlush (waits : sentRequests history.batch.pending ≠ []) :
    ∃ flush, (history.perform .beginFlush).flushes[history.flushes.length]? = some flush ∧
      flush.isOpen = true ∧ flush.requests = sentRequests history.batch.pending := by
  refine ⟨_, List.getElem?_concat_length, ?_, rfl⟩
  simpa [Flush.isOpen, take] using waits

/-- A flush of the program asks what its transport asks to send what waits, and ends with what
becomes of the batch in a flush of its history. -/
theorem flush_mirrors (waits : sentRequests history.batch.pending ≠ []) :
    (history.batch.flush transport).Mirrors
      (transport.sendBatch ((sentRequests history.batch.pending).map Prod.snd))
      history.Flushes := by
  have performed : ∀ reply,
      ((history.perform .beginFlush).perform (.endFlush history.flushes.length reply)).batch =
        history.batch.take.1.resolve (conclude (sentRequests history.batch.pending) reply).1 := by
    intro reply
    rcases isOpen_beginFlush waits with ⟨flush, found, isOpen, requests⟩
    rw [batch_perform_endFlush _ found isOpen, requests]
    rfl
  have exchanges : (exchange transport (sentRequests history.batch.pending)).Mirrors
      (transport.sendBatch ((sentRequests history.batch.pending).map Prod.snd))
      (Concludes (sentRequests history.batch.pending)) := exchange_mirrors waits
  have mirrors := exchanges.bind_pure
    fun result => (history.batch.take.1.resolve result.1, result.2)
  intro start stop asked ending
  refine (mirrors start stop asked ending).trans ?_
  have sameEnding : ∀ early,
      (∃ middle, Concludes (sentRequests history.batch.pending) early middle ∧
        ending = middle.map fun result => (history.batch.take.1.resolve result.1, result.2)) ↔
        history.Flushes early ending := by
    intro early
    constructor
    · rintro ⟨middle, concludes, rfl⟩
      cases concludes with
      | @ended reply =>
          change history.Flushes _ (.ended (.ok (_, _)))
          rw [← performed reply]
          exact .ended
      | stuck => exact .stuck
      | unfinished => exact .unfinished
    · intro flushes
      cases flushes with
      | @ended reply =>
          rw [performed reply]
          exact ⟨_, .ended, rfl⟩
      | stuck => exact ⟨_, .stuck, rfl⟩
      | unfinished => exact ⟨_, .unfinished, rfl⟩
  simp only [sameEnding]

end History

end Exchanges

end Batch

end ContractClient
