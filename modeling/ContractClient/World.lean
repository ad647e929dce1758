import ContractClient.Activity

/-!
# Worlds

A world replies to the questions of activities: it says what the answer is and how many seconds it
takes, which may be forever. `Activity.run` follows an activity in a world until it ends. Time
passes only while questions are open.

A question whose deadline has come is not asked any more. When an answer, a deadline and a
cancellation come at the same moment, the cancellation counts before the deadline and the deadline
before the answer.
-/

namespace ContractClient

/-- How a world replies to a question. -/
structure Response (State : Type) (query : Query) where
  /-- The seconds until the answer; none if there never is one. -/
  delay : Option Rat
  answer : query.Answer
  next : State

/-- Something that replies to questions and sees events. -/
structure World (State : Type) where
  respond : State → (now : Rat) → (query : Query) → Response State query
  observe : State → Event → State

/-- How an activity ends. -/
inductive Ending (α : Type) where
  | ended (outcome : Outcome α)
  /-- A question is never answered. -/
  | stuck
  /-- There are more rounds than were to be followed. -/
  | unfinished
  deriving Inhabited

/-- The moment at which a question ends, and how. -/
structure Closing (α : Type) where
  time : Rat
  reply : Reply α
  wasCancelled : Bool := false

/-- Takes the earlier one of two closings; the first one if they come at the same moment. -/
def Closing.earlier {α : Type} (first second : Option (Closing α)) : Option (Closing α) :=
  match first, second with
  | none, second => second
  | first, none => first
  | some first, some second => if first.time ≤ second.time then some first else some second

/-- When and how a question ends that is asked now. Nothing is answered before it is asked. -/
def Closing.of {α : Type} (now : Rat) (cancelAt deadline delay : Option Rat) (answer : α) :
    Option (Closing α) :=
  earlier
    (cancelAt.map fun time => { time := max now time, reply := .cancelled, wasCancelled := true })
    (earlier (deadline.map fun time => { time, reply := .expired })
      (delay.map fun delay => { time := now + max delay 0, reply := .answer answer }))

/-- How a world replies to a question; a sleep needs nobody to reply. -/
def World.reply {State : Type} (world : World State) (state : State) (now : Rat) :
    (query : Query) → Response State query
  | .sleep seconds => { delay := some seconds, answer := (), next := state }
  | query => world.respond state now query

/-- Follows an activity from a moment on, until it ends or is cancelled. -/
def Activity.run {State α : Type} (world : World State) :
    Activity α → (cancelAt : Option Rat) → (now : Rat) → State → Ending α × Rat × State
  | done outcome, _, now, state => (.ended outcome, now, state)
  | suspended, _, now, state => (.unfinished, now, state)
  | tell event rest, cancelAt, now, state => rest.run world cancelAt now (world.observe state event)
  | clock resume, cancelAt, now, state => (resume now).run world cancelAt now state
  | ask query deadline resume, cancelAt, now, state =>
    if deadline.any (· ≤ now) then (resume .expired).run world cancelAt now state
    else
      let response := world.reply state now query
      match Closing.of now cancelAt deadline response.delay response.answer with
      | none => (.stuck, now, response.next)
      | some closing =>
        (resume closing.reply).run world (if closing.wasCancelled then none else cancelAt)
          closing.time response.next

end ContractClient
