import ContractClient.Value

/-!
# Log records

A record has a severity, the name of the logger that writes it, a message and fields; the context in
which it is written gives it further fields. `LogRecord.line` writes a record in one line: a layout
filled in, and the fields in the order of their names. A field of the record comes before a field of
the context with the same name.
-/

namespace ContractClient

/-- How grave the matter of a record is. -/
inductive Severity where
  | debug | info | warning | error | critical
  deriving DecidableEq, Repr, Inhabited

namespace Severity

def label : Severity → String
  | debug => "DEBUG"
  | info => "INFO"
  | warning => "WARNING"
  | error => "ERROR"
  | critical => "CRITICAL"

def rank : Severity → Int
  | debug => 10
  | info => 20
  | warning => 30
  | error => 40
  | critical => 50

end Severity

/-- Something that was noted. -/
structure LogRecord where
  severity : Severity
  logger : String
  message : String
  fields : Dict := []
  context : Dict := []
  deriving Inhabited

/-- A piece of a layout. -/
inductive LayoutPiece where
  | character (value : Char)
  | severity
  | logger
  | message
  deriving DecidableEq, Repr, Inhabited

/-- How the part of a line before the fields is laid out. -/
abbrev Layout := List LayoutPiece

namespace Layout

def names : List (String × LayoutPiece) := [
  ("%(levelname)s", .severity), ("%(name)s", .logger), ("%(message)s", .message),
  ("%%", .character '%')]

/-- The pieces of a layout. The fuel bounds their number. -/
def piecesFrom : (fuel : Nat) → List Char → Layout
  | 0, _ => []
  | _, [] => []
  | fuel + 1, character :: rest =>
    match names.find? fun entry => entry.1.toList.isPrefixOf (character :: rest) with
    | some (name, piece) => piece :: piecesFrom fuel ((character :: rest).drop name.length)
    | none => .character character :: piecesFrom fuel rest

/-- Reads a layout, in which names in parentheses stand for parts of a record. -/
def ofText (text : String) : Layout :=
  piecesFrom text.length text.toList

def showsRecord (layout : Layout) : Bool :=
  layout.any fun piece => match piece with
    | .character _ => false
    | _ => true

def standard : Layout :=
  ofText "%(levelname)s %(name)s: %(message)s"

end Layout

namespace LogRecord

/-- The names that parts of a record have already. No field may take them. -/
def takenNames : List String := [
  "name", "msg", "args", "levelname", "levelno", "pathname", "filename", "module", "exc_info",
  "exc_text", "stack_info", "lineno", "funcName", "created", "msecs", "relativeCreated", "thread",
  "threadName", "processName", "process", "message", "asctime"]

def shownFields (record : LogRecord) : Dict :=
  let own := record.fields.filter fun (key, _) =>
    !takenNames.contains key && !key.toList.head?.any (· == '_')
  (Dict.merge record.context own).mergeSort fun left right => left.1 ≤ right.1

def pieceText (record : LogRecord) : LayoutPiece → String
  | .character value => String.singleton value
  | .severity => record.severity.label
  | .logger => record.logger
  | .message => record.message

def line (layout : Layout) (record : LogRecord) : String :=
  let start := String.join (layout.map record.pieceText)
  match record.shownFields with
  | [] => start
  | fields =>
    start ++ " | " ++ " ".intercalate (fields.map fun (key, value) => key ++ "=" ++ value.render)

end LogRecord

end ContractClient
