import ContractClient.Log.Record
import ContractClient.Rpc.Message
import ContractClient.Transaction.Pending

/-!
# Activities

An activity is a computation that takes time and depends on others: it asks a node, a signing agent
or a server, it sleeps, and it notes what it does. `Activity` describes such a computation as a
tree: each question is followed by what happens for every reply to it. Activities run in a world
that replies (`Activity.run` in `ContractClient.World`).

A question may have a deadline, and the whole activity may be cancelled; both end the question
without an answer. `Activity.bounded` puts a deadline on all questions of an activity, and turns its
end at the deadline into a timeout.

A loop without a bound of its own is followed for a number of rounds only; an activity that has more
rounds before it ends in `suspended`.
-/

namespace ContractClient

/-- What a server replies over HTTP. -/
structure HttpReply where
  status : Int
  body : Bytes
  deriving Inhabited

/-- A question that takes time. -/
inductive Query where
  | sleep (seconds : Rat)
  /-- Asks a node to execute a method. -/
  | call (method : String) (params : List Value)
  /-- Asks a node to execute several requests in one round trip. -/
  | batch (requests : List RpcRequest)
  /-- Asks an agent to sign a digest. -/
  | sign (digest : Bytes)
  /-- Posts a body to a server. -/
  | post (body : Value)
  /-- Asks a provider to execute a method. -/
  | provide (method : String) (params : List Value)
  /-- Asks a provider to execute several requests. -/
  | provideBatch (requests : List (String × List Value))
  /-- Asks a provider to disconnect. -/
  | disconnect
  deriving Inhabited

abbrev Query.Answer : Query → Type
  | sleep _ => Unit
  | call _ _ => Outcome Value
  | batch _ => Outcome (List RpcResponse)
  | sign _ => Outcome Value
  | post _ => Outcome HttpReply
  | provide _ _ => Outcome Value
  | provideBatch _ => Outcome Value
  | disconnect => Outcome Unit

/-- How a question ends. -/
inductive Reply (α : Type) where
  | answer (value : α)
  /-- The deadline has passed. -/
  | expired
  /-- The activity is cancelled. -/
  | cancelled

/-- Something that an activity lets others see. -/
inductive Event where
  | note (record : LogRecord)
  /-- What is known about a pending transaction now. -/
  | progress (pending : PendingTransaction)
  deriving Inhabited

/-- A computation that takes time and depends on others. -/
inductive Activity (α : Type) where
  | done (outcome : Outcome α)
  /-- There are more rounds than were to be followed. -/
  | suspended
  | tell (event : Event) (next : Activity α)
  /-- Looks at the clock, which shows seconds. -/
  | clock (resume : Rat → Activity α)
  | ask (query : Query) (deadline : Option Rat) (resume : Reply query.Answer → Activity α)

namespace Activity

instance {α : Type} : Inhabited (Activity α) := ⟨suspended⟩

def ofOutcome {α : Type} (outcome : Outcome α) : Activity α :=
  done outcome

/-- Continues an activity with what follows its outcome. -/
def andThen {α β : Type} (activity : Activity α) (next : Outcome α → Activity β) : Activity β :=
  match activity with
  | done outcome => next outcome
  | suspended => suspended
  | tell event rest => tell event (rest.andThen next)
  | clock resume => clock fun now => (resume now).andThen next
  | ask query deadline resume => ask query deadline fun reply => (resume reply).andThen next

instance : Monad Activity where
  pure value := done (.ok value)
  bind activity next := activity.andThen fun
    | .ok value => next value
    | .error failure => done (.error failure)

instance : MonadLift Outcome Activity where
  monadLift outcome := done outcome

def fault {α : Type} (fault : Fault) : Activity α :=
  done (.error (.fault fault))

def fail {α : Type} (failure : Failure) : Activity α :=
  done (.error failure)

def attempt {α : Type} (activity : Activity α) : Activity (Outcome α) :=
  activity.andThen fun outcome => pure outcome

def handle {α : Type} (activity : Activity α) (handler : Failure → Activity α) : Activity α :=
  activity.andThen fun
    | .ok value => pure value
    | .error failure => handler failure

/-- Asks a question and takes the answer. Without an answer the activity is cancelled. -/
def perform (query : Query) : Activity query.Answer :=
  ask query none fun
    | .answer value => done (.ok value)
    | _ => done (.error .cancelled)

/-- Takes the outcome that a question was answered with. -/
def settle {α : Type} (activity : Activity (Outcome α)) : Activity α :=
  activity.andThen fun
    | .ok outcome => done outcome
    | .error failure => done (.error failure)

def now : Activity Rat :=
  clock fun time => pure time

def emit (event : Event) : Activity Unit :=
  tell event (pure ())

def note (severity : Severity) (logger message : String) (fields : Dict := []) : Activity Unit :=
  emit (.note { severity, logger, message, fields })

/-- Publishes what is known about a pending transaction. -/
def publish (pending : PendingTransaction) : Activity Unit :=
  emit (.progress pending)

/-- Waits for a number of seconds; not at all if it is negative. -/
def sleep (seconds : Rat) : Activity Unit :=
  perform (.sleep (max seconds 0))

def Event.within (context : Dict) : Event → Event
  | .note record => .note { record with context := Dict.merge context record.context }
  | event => event

/-- An activity whose records are noted within a context. -/
def within {α : Type} (context : Dict) : Activity α → Activity α
  | done outcome => done outcome
  | suspended => suspended
  | tell event rest => tell (Event.within context event) (rest.within context)
  | clock resume => clock fun time => (resume time).within context
  | ask query deadline resume => ask query deadline fun reply => (resume reply).within context

/-- What remains of an activity after its deadline has passed: it is cancelled, and if it ends by
that, the outcome is a timeout. -/
def expire {α : Type} (rest : Activity α) : Activity α :=
  rest.andThen fun
    | .error (.condition .cancelled _) => done (Outcome.condition .timeout)
    | outcome => done outcome

/-- An activity that ends in a timeout when the clock reaches the deadline. -/
def boundedBy {α : Type} (limit : Rat) : Activity α → Activity α
  | done outcome => done outcome
  | suspended => suspended
  | tell event rest => tell event (rest.boundedBy limit)
  | clock resume => clock fun time => (resume time).boundedBy limit
  | ask query deadline resume =>
    match deadline with
    | some own =>
      if own ≤ limit then ask query deadline fun reply => (resume reply).boundedBy limit
      else ask query (some limit) fun
        | .expired => (resume .cancelled).expire
        | reply => (resume reply).boundedBy limit
    | none => ask query (some limit) fun
      | .expired => (resume .cancelled).expire
      | reply => (resume reply).boundedBy limit

/-- An activity that ends in a timeout when the clock reaches the deadline, if there is one. -/
def bounded {α : Type} (deadline : Option Rat) (activity : Activity α) : Activity α :=
  match deadline with
  | some limit => activity.boundedBy limit
  | none => activity

end Activity

end ContractClient
