import ContractClient.Number.Numeral
import ContractClient.Simulation.Script

/-!
# Sessions

A session runs activities in a scripted world one after the other, together with a state of its
own. `Session.runSteps` runs a list of named steps and describes how each one ends; a step that
fails does not keep the following ones from running.
-/

namespace ContractClient

/-- A computation in a scripted world, with a state of its own. -/
abbrev Session (σ : Type) := ExceptT Failure (StateT σ (StateM ScriptedWorld))

namespace Session

variable {σ α : Type}

def lift (outcome : Outcome α) : Session σ α :=
  ExceptT.mk (pure outcome)

def world : Session σ ScriptedWorld :=
  getThe ScriptedWorld

def changeWorld (change : ScriptedWorld → ScriptedWorld) : Session σ Unit :=
  modifyThe ScriptedWorld change

/-- Runs an activity, and cancels it at a moment unless it has ended by then. -/
def perform (activity : Activity α) (cancelAt : Option Rat := none) : Session σ α := do
  let before ← world
  let (ending, now, after) := activity.run ScriptedWorld.world cancelAt before.now before
  changeWorld fun _ => { after with now }
  match ending with
  | .ended outcome => lift outcome
  | _ => lift (Outcome.condition .assertion)

def attempt (session : Session σ α) : Session σ (Outcome α) :=
  ExceptT.mk (do return .ok (← session.run))

/-- Runs an activity for a number of seconds and cancels it then. All of these seconds pass. -/
def performFor (seconds : Rat) (activity : Activity α) : Session σ α := do
  let stop := (← world).now + seconds
  let outcome ← attempt (perform activity (some stop))
  changeWorld fun world => { world with now := max world.now stop }
  lift outcome

def milliseconds (seconds : Rat) : Int :=
  Numeral.roundToEven (seconds * 1000)

/-- The fields of a document, with the milliseconds that have passed unless there are none. -/
def withTime (fields : Dict) (seconds : Rat) : Dict :=
  match milliseconds seconds with
  | 0 => fields
  | passed => Dict.set fields "ms" (.int passed)

/-- Runs a step, which is given by its name and its arguments, and describes how it ends. -/
def runStep (execute : String → List Value → Session σ Value)
    (extra : σ → ScriptedWorld → Dict) (step : Value) : StateT σ (StateM ScriptedWorld) Value := do
  modifyThe ScriptedWorld fun world => { world with calls := [] }
  let started := (← getThe ScriptedWorld).now
  let outcome ← (execute (step.parts.headD step).asText step.parts.tail).run
  let world ← getThe ScriptedWorld
  let fields := Dict.merge (Outcome.toFields outcome) (extra (← getThe σ) world)
  return .dict (withTime fields (world.now - started))

/-- Runs steps one after the other, from a state on, and describes how each one ends. -/
def runSteps {τ : Type} (steps : Value) (state : τ)
    (execute : String → List Value → Session τ Value)
    (extra : τ → ScriptedWorld → Dict := fun _ _ => []) : Session σ Value :=
  ExceptT.mk do
    let (answers, _) ← ((steps.parts.mapM (runStep execute extra)).run state : StateM _ _)
    return .ok (.list answers)

def askedOf (_ : σ) (world : ScriptedWorld) : Dict :=
  [("calls", .list world.calls)]

end Session

end ContractClient
