import ContractClient.Failure
import ContractClient.Log.Record

/-!
# Log contexts

A context binds fields to all records that are noted between entering and leaving it. While it is
entered it remembers the fields that were bound before, and leaving it binds those again.
-/

namespace ContractClient

/-- Fields that are bound while the context is entered. -/
structure LogContext where
  fields : Dict
  /-- What was bound before the context was entered, while it is entered. -/
  outer? : Option Dict := none
  deriving Inhabited

namespace LogContext

/-- The name by which a context is given itself. No field can have it. -/
def ownName : String := "self"

/-- A context with the given fields, which is not entered. -/
def ofFields (fields : Dict) : Outcome LogContext :=
  if (Dict.get? fields ownName).isSome then Outcome.condition .wrongKind else .ok { fields }

/-- Enters a context: the context and the fields that are bound now. -/
def enter (context : LogContext) (current : Dict) : LogContext × Dict :=
  ({ context with outer? := some current }, Dict.merge current context.fields)

/-- Leaves a context: the context and the fields that are bound now. A context that is not entered
changes nothing. -/
def leave (context : LogContext) (current : Dict) : LogContext × Dict :=
  match context.outer? with
  | some outer => ({ context with outer? := none }, outer)
  | none => (context, current)

end LogContext

end ContractClient
