import ContractClient.Text.Blank

/-!
# Environment files

An environment file binds variables, one to a line: a name, an equals sign and a value. Values may
stand between quotes, and then span lines and hold escapes; other values end before a comment.
`EnvironmentFile.bindings` reads a file and passes over lines that it cannot read.
`EnvironmentFile.resolve` puts the values of variables in place of their names in braces.
-/

namespace ContractClient.EnvironmentFile

/-- A variable with its value; a name without an equals sign has none. -/
structure Binding where
  name : String
  value : Option String
  deriving DecidableEq, Repr, Inhabited

/-- Whether a character separates words within a line. -/
def isSpace (character : Char) : Bool :=
  Text.isBlank character && character != '\n' && character != '\r'

def isBreak (character : Char) : Bool :=
  character == '\n' || character == '\r'

/-- A text with line feeds as its only line breaks. -/
def unifyBreaks : List Char → List Char
  | '\r' :: '\n' :: rest => '\n' :: unifyBreaks rest
  | '\r' :: rest => '\n' :: unifyBreaks rest
  | character :: rest => character :: unifyBreaks rest
  | [] => []

def dropLine (characters : List Char) : List Char :=
  (characters.dropWhile (! isBreak ·)).drop 1

/-- What follows the word `export` and the spaces after it. -/
def dropExport (characters : List Char) : List Char :=
  let word := "export".toList
  let rest := characters.drop word.length
  if word.isPrefixOf characters && rest.head?.any isSpace then rest.dropWhile isSpace
  else characters

/-- Separates a text at its first single quote. The part before the quote must not be empty. -/
def splitQuotedName? (characters : List Char) : Option (List Char × List Char) :=
  let name := characters.takeWhile (· != '\x27')
  match characters.dropWhile (· != '\x27') with
  | _ :: rest => if name.isEmpty then none else some (name, rest)
  | [] => none

/-- Whether a character may stand in a name without quotes. -/
def isNameCharacter (character : Char) : Bool :=
  character != '=' && character != '#' && !Text.isBlank character

/-- Separates the name from the start of a text; where a comment starts there is no name. -/
def splitName? (characters : List Char) : Option (Option (List Char) × List Char) :=
  match characters with
  | '#' :: _ => some (none, characters)
  | '\x27' :: rest => (splitQuotedName? rest).map fun (name, rest) => (some name, rest)
  | _ =>
    let name := characters.takeWhile isNameCharacter
    if name.isEmpty then none else some (some name, characters.dropWhile isNameCharacter)

/-- Separates a text at the quote that closes it. An escaped quote closes a text only if no other
quote does. -/
def splitClosing? (quote : Char) : List Char → Option (List Char × List Char)
  | [] => none
  | '\\' :: next :: rest =>
    if next = quote then
      match splitClosing? quote rest with
      | some (content, rest) => some ('\\' :: next :: content, rest)
      | none => some (['\\'], rest)
    else (splitClosing? quote (next :: rest)).map fun (content, rest) => ('\\' :: content, rest)
  | character :: rest =>
    if character = quote then some ([], rest)
    else (splitClosing? quote rest).map fun (content, rest) => (character :: content, rest)

/-- What a character after a backslash stands for between double quotes. -/
def escaped? : Char → Option Char
  | '\\' => some '\\'
  | '\x27' => some '\x27'
  | '\x22' => some '\x22'
  | 'a' => some '\x07'
  | 'b' => some '\x08'
  | 'f' => some '\x0c'
  | 'n' => some '\n'
  | 'r' => some '\r'
  | 't' => some '\t'
  | 'v' => some '\x0b'
  | _ => none

/-- What a character after a backslash stands for between single quotes. -/
def escapedSingle? : Char → Option Char
  | '\\' => some '\\'
  | '\x27' => some '\x27'
  | _ => none

/-- A text with its escapes replaced by what they stand for. -/
def unescape (escaped : Char → Option Char) : List Char → List Char
  | '\\' :: next :: rest =>
    match escaped next with
    | some character => character :: unescape escaped rest
    | none => '\\' :: unescape escaped (next :: rest)
  | character :: rest => character :: unescape escaped rest
  | [] => []

/-- A value without the comment at its end: a number sign after a blank, and what follows. -/
def dropComment : List Char → List Char
  | [] => []
  | character :: rest =>
    if Text.isBlank character && (rest.dropWhile Text.isBlank).head? == some '#' then []
    else character :: dropComment rest

def splitValue? (characters : List Char) : Option (List Char × List Char) :=
  match characters with
  | '\x27' :: rest =>
    (splitClosing? '\x27' rest).map fun (content, rest) => (unescape escapedSingle? content, rest)
  | '\x22' :: rest =>
    (splitClosing? '\x22' rest).map fun (content, rest) => (unescape escaped? content, rest)
  | _ =>
    let line := characters.takeWhile (! isBreak ·)
    some (Text.stripRight (dropComment line), characters.dropWhile (! isBreak ·))

/-- What follows the end of a line, before which only spaces and a comment may stand. -/
def endLine? (characters : List Char) : Option (List Char) :=
  let rest := characters.dropWhile isSpace
  let rest := if rest.head? == some '#' then rest.dropWhile (! isBreak ·) else rest
  match rest with
  | [] => some []
  | character :: rest => if isBreak character then some rest else none

/-- Separates the value after a name, if there is an equals sign. -/
def splitAssignment? (characters : List Char) : Option (Option (List Char) × List Char) :=
  match characters with
  | '=' :: rest =>
      (splitValue? (rest.dropWhile isSpace)).map fun (value, rest) => (some value, rest)
  | _ => some (none, characters)

/-- Reads one binding, or passes over a line: the binding, if there is one, and what follows. -/
def readBinding (characters : List Char) : Option Binding × List Char :=
  let start := dropExport characters
  match splitName? start with
  | none => (none, dropLine start)
  | some (name, rest) =>
    let rest := rest.dropWhile isSpace
    match splitAssignment? rest with
    | none =>
      (none, dropLine ((rest.drop 1).dropWhile isSpace))
    | some (value, rest) =>
      match endLine? rest with
      | none => (none, dropLine rest)
      | some rest =>
        (name.map fun name =>
          { name := String.ofList name, value := value.map String.ofList }, rest)

/-- Reads bindings to the end of the text. The fuel bounds their number. -/
def bindingsFrom : (fuel : Nat) → List Char → List Binding
  | 0, _ => []
  | fuel + 1, characters =>
    match characters.dropWhile Text.isBlank with
    | [] => []
    | start =>
      let (binding, rest) := readBinding start
      binding.toList ++ bindingsFrom fuel rest

/-- The bindings of a file. Every binding takes at least one character. -/
def bindings (text : String) : List Binding :=
  let characters := unifyBreaks text.toList
  bindingsFrom (characters.length + 1) characters

/-- The name and the default of a variable in braces, and what follows the brace. -/
def splitVariable? (characters : List Char) : Option (String × String × List Char) :=
  let name := characters.takeWhile fun character => character != '\x7d' && character != ':'
  match characters.drop name.length with
  | '\x7d' :: rest => some (String.ofList name, "", rest)
  | ':' :: '-' :: rest =>
    let default := rest.takeWhile (· != '\x7d')
    match rest.drop default.length with
    | _ :: rest => some (String.ofList name, String.ofList default, rest)
    | [] => none
  | _ => none

/-- A value with variables in braces replaced by what they are bound to. The fuel bounds the number
of characters. -/
def expand (lookup : String → Option String) : (fuel : Nat) → List Char → List Char
  | 0, _ => []
  | _, [] => []
  | fuel + 1, '$' :: '\x7b' :: rest =>
    match splitVariable? rest with
    | some (name, default, rest) =>
      ((lookup name).getD default).toList ++ expand lookup fuel rest
    | none => '$' :: expand lookup fuel ('\x7b' :: rest)
  | fuel + 1, character :: rest => character :: expand lookup fuel rest

abbrev Environment := List (String × String)

def Environment.get? (environment : Environment) (name : String) : Option String :=
  (environment.find? fun entry => entry.1 == name).map Prod.snd

/-- The bindings of a file with their variables replaced: by those of the environment, or else by
those bound before in the file. A later binding takes the place of an earlier one. -/
def resolve (environment : Environment) (bindings : List Binding) : List Binding :=
  bindings.foldl (fun resolved binding =>
    let lookup (name : String) : Option String :=
      match environment.get? name with
      | some value => some value
      | none => (resolved.find? fun earlier => earlier.name == name).map fun earlier =>
          earlier.value.getD ""
    let value := binding.value.map fun value =>
      String.ofList (expand lookup (value.length + 1) value.toList)
    if resolved.any fun earlier => earlier.name == binding.name then
      resolved.map fun earlier =>
        if earlier.name == binding.name then { binding with value } else earlier
    else resolved ++ [{ binding with value }]) []

/-- An environment completed by the bindings of a file. What the environment binds already stays. -/
def load (environment : Environment) (text : String) : Environment :=
  (resolve environment (bindings text)).foldl (fun environment binding =>
    match binding.value with
    | none => environment
    | some value =>
      if (environment.get? binding.name).isSome then environment
      else environment ++ [(binding.name, value)]) environment

end ContractClient.EnvironmentFile
