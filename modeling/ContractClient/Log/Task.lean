import ContractClient.Log.Journal

/-!
# Tasks that log

A task writes records, looks at the fields that are bound, and enters contexts. Each context is
entered for a block, and left when the block ends, be it at its end or by a failure. Contexts are
held by those who made them, and may be entered again at any time.
-/

namespace ContractClient

/-- What a task does until it ends. Contexts go by numbers. -/
inductive LogTask where
  | done
  | fail (failure : Failure)
  | look (rest : LogTask)
  | note (record : LogRecord) (rest : LogTask)
  /-- Goes on after a part of the task whether this fails or not. -/
  | attempt (body rest : LogTask)
  /-- Does a part of the task inside a context. -/
  | block (number : Nat) (body rest : LogTask)
  deriving Inhabited

/-- A journal, the contexts that can be entered in it, and the bound fields that were looked at. -/
structure LogScene where
  journal : Journal
  contexts : Nat → LogContext
  seen : List Dict := []

namespace LogScene

def look (scene : LogScene) : LogScene :=
  { scene with seen := scene.seen ++ [scene.journal.current] }

def bind (scene : LogScene) (current : Dict) : LogScene :=
  { scene with journal := { scene.journal with current } }

/-- Replaces a context and the fields that are bound. -/
def change (scene : LogScene) (number : Nat) (changed : LogContext × Dict) : LogScene :=
  { scene.bind changed.2 with
    contexts := fun other => if other = number then changed.1 else scene.contexts other }

def enter (scene : LogScene) (number : Nat) : LogScene :=
  scene.change number ((scene.contexts number).enter scene.journal.current)

def leave (scene : LogScene) (number : Nat) : LogScene :=
  scene.change number ((scene.contexts number).leave scene.journal.current)

end LogScene

namespace LogTask

/-- Does a task: the scene after it, and the failure that it ends with. -/
def run : LogTask → LogScene → LogScene × Option Failure
  | done, scene => (scene, none)
  | fail failure, scene => (scene, some failure)
  | look rest, scene => run rest scene.look
  | note record rest, scene =>
    match scene.journal.write record with
    | .ok journal => run rest { scene with journal }
    | .error failure => (scene, some failure)
  | attempt body rest, scene => run rest (run body scene).1
  | block number body rest, scene =>
    let ended := run body (scene.enter number)
    let left := ended.1.leave number
    match ended.2 with
    | none => run rest left
    | some failure => (left, some failure)

end LogTask

end ContractClient
