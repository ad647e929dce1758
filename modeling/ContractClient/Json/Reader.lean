import ContractClient.Number.Decimal
import ContractClient.Text.Integer
import ContractClient.Value

/-!
# Reading JSON

`Json.read?` reads a value from the whole of a text. Integers stay exact, numbers with a fraction or
an exponent become `Binary64`, and the words `NaN`, `Infinity` and `-Infinity` are numbers too. A
key that is repeated keeps its first position and its last value. `Json.readBytes?` first finds out
how the text is encoded: from its byte order mark, or from the zero bytes among the first four.
-/

namespace ContractClient

/-- The text with the given code points; it is broken when one of them is a surrogate. -/
def Value.ofCodePoints (codePoints : List Nat) : Value :=
  if codePoints.all fun codePoint => codePoint.isValidChar then
    .text (String.ofList (codePoints.map Char.ofNat))
  else .brokenText codePoints

namespace Json

/-- Whether a character may stand between the parts of a value. -/
def isBlank (character : Char) : Bool :=
  character == ' ' || character == '\t' || character == '\n' || character == '\r'

/-- A text without the blanks at its start. -/
def skipBlanks (characters : List Char) : List Char :=
  characters.dropWhile isBlank

def unit? (a b c d : Char) : Option Nat :=
  Hex.number? [a, b, c, d]

def escaped? : Char → Option Char
  | '\x22' => some '\x22'
  | '\\' => some '\\'
  | '/' => some '/'
  | 'b' => some '\x08'
  | 'f' => some '\x0c'
  | 'n' => some '\n'
  | 'r' => some '\r'
  | 't' => some '\t'
  | _ => none

/-- The code points of a text up to its closing quote, and what follows the quote. Surrogates are
still apart. -/
def readUnits? : List Char → Option (List Nat × List Char)
  | [] => none
  | '\x22' :: rest => some ([], rest)
  | '\\' :: 'u' :: a :: b :: c :: d :: rest => do
    let unit ← unit? a b c d
    let (units, rest) ← readUnits? rest
    some (unit :: units, rest)
  | '\\' :: character :: rest => do
    let character ← escaped? character
    let (units, rest) ← readUnits? rest
    some (character.toNat :: units, rest)
  | character :: rest =>
    if character.toNat < 0x20 || character = '\\' then none
    else do
      let (units, rest) ← readUnits? rest
      some (character.toNat :: units, rest)

/-- Joins the two halves of a code point above `0xffff` wherever they follow each other. -/
def joinSurrogates : List Nat → List Nat
  | [] => []
  | [unit] => [unit]
  | high :: low :: units =>
    if 0xd800 ≤ high ∧ high < 0xdc00 ∧ 0xdc00 ≤ low ∧ low < 0xe000 then
      (0x10000 + (high - 0xd800) * 0x400 + (low - 0xdc00)) :: joinSurrogates units
    else high :: joinSurrogates (low :: units)

def readText? (characters : List Char) : Option (Value × List Char) := do
  let (units, rest) ← readUnits? characters
  some (.ofCodePoints (joinSurrogates units), rest)

/-- The text of a key. A surrogate that stands alone has no place in a key and is replaced. -/
def keyOf : Value → String
  | .text key => key
  | .brokenText codePoints =>
    String.ofList (codePoints.map fun codePoint =>
      if codePoint.isValidChar then Char.ofNat codePoint else '\ufffd')
  | _ => ""

/-- Separates the fraction from the start of a text: a point and at least one digit. -/
def splitFraction (characters : List Char) : List Char × List Char :=
  match characters with
  | '.' :: rest =>
    let digits := rest.takeWhile Char.isDigit
    if digits.isEmpty then ([], characters) else ('.' :: digits, rest.dropWhile Char.isDigit)
  | _ => ([], characters)

def splitExponent (characters : List Char) : List Char × List Char :=
  match characters with
  | marker :: rest =>
    if marker = 'e' ∨ marker = 'E' then
      let (sign, unsigned) := match rest with
        | '-' :: unsigned => (['-'], unsigned)
        | '+' :: unsigned => (['+'], unsigned)
        | unsigned => ([], unsigned)
      let digits := unsigned.takeWhile Char.isDigit
      if digits.isEmpty then ([], characters)
      else (marker :: (sign ++ digits), unsigned.dropWhile Char.isDigit)
    else ([], characters)
  | [] => ([], [])

/-- Separates the whole part from the start of a text: a single zero, or digits of which the first
one is no zero. -/
def splitWhole? : List Char → Option (List Char × List Char)
  | '0' :: rest => some (['0'], rest)
  | characters =>
    let digits := characters.takeWhile Char.isDigit
    if digits.isEmpty then none else some (digits, characters.dropWhile Char.isDigit)

def readNumber? (characters : List Char) : Option (Value × List Char) := do
  let (sign, unsigned) := match characters with
    | '-' :: unsigned => (['-'], unsigned)
    | unsigned => ([], unsigned)
  let (whole, rest) ← splitWhole? unsigned
  let (fraction, rest) := splitFraction rest
  let (exponent, rest) := splitExponent rest
  if fraction.isEmpty && exponent.isEmpty then
    let number ← Text.integer? (sign ++ whole)
    some (.int number, rest)
  else
    let number ← Decimal.toBinary64? (sign ++ whole ++ fraction ++ exponent)
    some (.float number, rest)

def afterWord? (word : String) (characters : List Char) : Option (List Char) :=
  if word.toList.isPrefixOf characters then some (characters.drop word.length) else none

def words : List (String × Value) := [
  ("null", .null), ("true", .bool true), ("false", .bool false), ("NaN", .float .notANumber),
  ("Infinity", .float (.infinite false)), ("-Infinity", .float (.infinite true))]

def readScalar? (characters : List Char) : Option (Value × List Char) :=
  match words.findSome? fun (word, value) => (afterWord? word characters).map ((value, ·)) with
  | some reading => some reading
  | none => readNumber? characters

mutual

/-- Reads a value. The fuel bounds the number of nested readings. -/
def readValue? : (fuel : Nat) → List Char → Option (Value × List Char)
  | 0, _ => none
  | fuel + 1, characters =>
    match skipBlanks characters with
    | '\x22' :: rest => readText? rest
    | '[' :: rest => match skipBlanks rest with
      | ']' :: rest => some (.list [], rest)
      | rest => do
        let (items, rest) ← readItems? fuel rest
        some (.list items, rest)
    | '\x7b' :: rest => match skipBlanks rest with
      | '\x7d' :: rest => some (.dict [], rest)
      | rest => do
        let (entries, rest) ← readEntries? fuel rest
        some (.dict (Dict.merge [] entries), rest)
    | rest => readScalar? rest

/-- Reads the items of a list up to its end. -/
def readItems? : (fuel : Nat) → List Char → Option (List Value × List Char)
  | 0, _ => none
  | fuel + 1, characters => do
    let (item, rest) ← readValue? fuel characters
    match skipBlanks rest with
    | ',' :: rest =>
      let (items, rest) ← readItems? fuel rest
      some (item :: items, rest)
    | ']' :: rest => some ([item], rest)
    | _ => none

/-- Reads the entries of an object up to its end. -/
def readEntries? : (fuel : Nat) → List Char → Option (Dict × List Char)
  | 0, _ => none
  | fuel + 1, characters =>
    match skipBlanks characters with
    | '\x22' :: rest => do
      let (key, rest) ← readText? rest
      match skipBlanks rest with
      | ':' :: rest =>
        let (value, rest) ← readValue? fuel rest
        match skipBlanks rest with
        | ',' :: rest =>
          let (entries, rest) ← readEntries? fuel rest
          some ((keyOf key, value) :: entries, rest)
        | '\x7d' :: rest => some ([(keyOf key, value)], rest)
        | _ => none
      | _ => none
    | _ => none

end

/-- The value that a text writes. Every reading takes a character or leads to one that does, so
that twice the length of the text is fuel enough. -/
def read? (characters : List Char) : Option Value := do
  let (value, rest) ← readValue? (2 * characters.length + 2) characters
  if (skipBlanks rest).isEmpty then some value else none

/-- The character with a code point, if it is one. -/
def character? (codePoint : Nat) : Option Char :=
  if codePoint.isValidChar then some (Char.ofNat codePoint) else none

def ofUnits? (bigEndian : Bool) (octets : Bytes) : Option (List Char) := do
  (joinSurrogates (← units octets)).mapM character?
where
  /-- The numbers in units of two bytes. -/
  units : Bytes → Option (List Nat)
    | [] => some []
    | first :: second :: rest => do
      let octets := if bigEndian then [first, second] else [second, first]
      some (Bytes.toNat octets :: (← units rest))
    | [_] => none

def ofWideUnits? (bigEndian : Bool) : Bytes → Option (List Char)
  | [] => some []
  | a :: b :: c :: d :: rest => do
    let octets := [a, b, c, d]
    let character ← character? (Bytes.toNat (if bigEndian then octets else octets.reverse))
    some (character :: (← ofWideUnits? bigEndian rest))
  | _ => none

def decodeText? (octets : Bytes) : Option (List Char) :=
  match octets with
  | 0 :: 0 :: 0xfe :: 0xff :: rest => ofWideUnits? true rest
  | 0xff :: 0xfe :: 0 :: 0 :: rest => ofWideUnits? false rest
  | 0xfe :: 0xff :: rest => ofUnits? true rest
  | 0xff :: 0xfe :: rest => ofUnits? false rest
  | 0xef :: 0xbb :: 0xbf :: rest => utf8 rest
  | 0 :: 0 :: _ :: _ :: _ => ofWideUnits? true octets
  | 0 :: _ :: _ :: _ :: _ => ofUnits? true octets
  | _ :: 0 :: 0 :: 0 :: _ => ofWideUnits? false octets
  | _ :: 0 :: _ :: _ :: _ => ofUnits? false octets
  | [0, _] => ofUnits? true octets
  | [_, 0] => ofUnits? false octets
  | _ => utf8 octets
where
  /-- The characters of a text in UTF-8. -/
  utf8 (octets : Bytes) : Option (List Char) :=
    (Bytes.toText? octets).map String.toList

def readBytes? (octets : Bytes) : Option Value := do
  read? (← decodeText? octets)

end Json

end ContractClient
