import ContractClient.Failure
import ContractClient.Log.Record

/-!
# Log settings

The settings decide which records are written, where, and how. Records are written by a single
handler, which is replaced whenever the settings are configured anew.
-/

namespace ContractClient

/-- Where a handler writes. -/
inductive LogSink where
  /-- The stream that was given when the settings were configured. -/
  | given
  /-- The stream for errors. -/
  | standard
  deriving DecidableEq, Repr, Inhabited

/-- What is written, where, and how. -/
structure LogSettings where
  handler : Option (LogSink × Layout) := none
  /-- The least rank that is written. -/
  level : Int := 51
  deriving Inhabited

namespace LogSettings

def rootName : String := "ethcontract"

def loggerName (name : String) : String :=
  if name = rootName || (rootName ++ ".").toList.isPrefixOf name.toList then name
  else rootName ++ "." ++ name

def levelNames : List (String × Int) := [
  ("CRITICAL", 50), ("FATAL", 50), ("ERROR", 40), ("WARN", 30), ("WARNING", 30), ("INFO", 20),
  ("DEBUG", 10), ("NOTSET", 0)]

/-- The level that a value gives by name or by number. -/
def levelOf : Value → Outcome Int
  | .int level => .ok level
  | .bool flag => .ok (if flag then 1 else 0)
  | .text name => match levelNames.find? fun entry => entry.1 == name with
    | some (_, level) => .ok level
    | none => Outcome.condition .badValue
  | .brokenText _ => Outcome.condition .badValue
  | _ => Outcome.condition .wrongKind

def setLevel (settings : LogSettings) (level : Value) : Outcome LogSettings := do
  return { settings with level := ← levelOf level }

/-- Writes nothing any more. -/
def disable (settings : LogSettings) : LogSettings :=
  { settings with level := 51 }

/-- Replaces the handler and sets the level. The handler is replaced even if the level is refused;
a layout that shows nothing of a record is refused, and then no handler is left. -/
def configure (settings : LogSettings) (level : Value) (layout : Layout) (sink : LogSink) :
    LogSettings × Outcome Unit :=
  if !layout.showsRecord then
    ({ settings with handler := none }, Outcome.condition .badValue)
  else
    let settings := { settings with handler := some (sink, layout) }
    match settings.setLevel level with
    | .ok settings => (settings, .ok ())
    | .error failure => (settings, .error failure)

def enableDebug (settings : LogSettings) : LogSettings :=
  { settings with handler := some (.standard, Layout.standard), level := 10 }

/-- The least rank that is written. The level zero stands for that of warnings. -/
def threshold (settings : LogSettings) : Int :=
  if settings.level = 0 then Severity.warning.rank else settings.level

/-- The line that a handler writes for a record, and where, if the record is grave enough. A field
must not take the name of a part of the record. -/
def write (settings : LogSettings) (record : LogRecord) : Outcome (Option (LogSink × String)) :=
  if record.severity.rank < settings.threshold then .ok none
  else if record.fields.any fun (key, _) => LogRecord.takenNames.contains key then
    Outcome.condition .missingKey
  else .ok (settings.handler.map fun (sink, layout) => (sink, record.line layout))

end LogSettings

end ContractClient
