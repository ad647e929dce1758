import ContractClient.Log.Context
import ContractClient.Log.Settings

/-!
# Journals

A journal writes records by its settings and keeps the lines that go to the given stream. Contexts
are entered and left in it one inside the other.
-/

namespace ContractClient

/-- Settings, bound fields, and the lines that were written. -/
structure Journal where
  settings : LogSettings := {}
  /-- The contexts that are entered, the innermost one first. -/
  entered : List LogContext := []
  /-- The fields that are bound. -/
  current : Dict := []
  lines : List String := []
  deriving Inhabited

namespace Journal

/-- A journal that writes from a level on in the standard layout. -/
def capturing (level : Value) : Journal :=
  { settings := (({} : LogSettings).configure level Layout.standard .given).1 }

/-- Enters a new context with the given fields. -/
def enter (journal : Journal) (fields : Dict) : Outcome Journal := do
  let (context, current) := (← LogContext.ofFields fields).enter journal.current
  return { journal with entered := context :: journal.entered, current }

def exit (journal : Journal) : Journal :=
  match journal.entered with
  | [] => journal
  | context :: entered => { journal with entered, current := (context.leave journal.current).2 }

def write (journal : Journal) (record : LogRecord) : Outcome Journal := do
  let record := { record with context := Dict.merge journal.current record.context }
  match ← journal.settings.write record with
  | some (.given, line) => return { journal with lines := journal.lines ++ [line] }
  | _ => return journal

end Journal

end ContractClient
