import ContractClient.Text.Blank
import ContractClient.Text.Digit
import ContractClient.Hex

/-!
# Reading integers

Integers may be written with blanks around them, a sign, single underscores between their digits,
and the decimal digits of any script. `Text.integer?` reads them in base ten, with a bound on the
number of digits, `Text.hexInteger?` in base sixteen after the marker `0x` and without a bound.
-/

namespace ContractClient.Text

/-- The greatest number of decimal digits that are converted between texts and integers. -/
def digitLimit : Nat := 4300

/-- Whether a character is a blank that ASCII has: a space, a tab, or a break of lines or pages. -/
def isAsciiBlank (character : Char) : Bool :=
  character == ' ' || ('\t' ≤ character && character ≤ '\r')

/-- A text in ASCII with the same meaning as an integer: digits of other scripts become ASCII ones
and blanks of other scripts spaces. Other characters stay as they are, and are not part of any
integer. A text that is in ASCII already stays the same. -/
def foldDigits (characters : List Char) : List Char :=
  characters.map fun character =>
    if character.toNat < 0x7f then character
    else if isBlank character then ' '
    else match digitValue? character with
      | some value => Char.ofNat ('0'.toNat + value)
      | none => character

/-- A text without the ASCII blanks at its two ends. -/
def stripAscii (characters : List Char) : List Char :=
  ((characters.dropWhile isAsciiBlank).reverse.dropWhile isAsciiBlank).reverse

/-- The digits of a text in which single underscores may stand between digits. -/
def separatedDigits? (isDigit : Char → Bool) : List Char → Option (List Char)
  | [] => none
  | [character] => if isDigit character then some [character] else none
  | character :: '_' :: rest =>
    if isDigit character then (separatedDigits? isDigit rest).map (character :: ·) else none
  | character :: rest =>
    if isDigit character then (separatedDigits? isDigit rest).map (character :: ·) else none

def splitSign : List Char → Bool × List Char
  | '-' :: rest => (true, rest)
  | '+' :: rest => (false, rest)
  | rest => (false, rest)

def integer? (characters : List Char) : Option Int := do
  let (negative, unsigned) := splitSign (stripAscii (foldDigits characters))
  let digits ← separatedDigits? Char.isDigit unsigned
  if digitLimit < digits.length then none
  let value := digits.foldl (fun total digit => total * 10 + (digit.toNat - '0'.toNat)) 0
  some (if negative then -(value : Int) else value)

/-- The digits of an integer in base sixteen without its sign: after the marker, if there is one, an
underscore may stand as well. -/
def splitMarker : List Char → List Char
  | '0' :: 'x' :: '_' :: rest => rest
  | '0' :: 'X' :: '_' :: rest => rest
  | '0' :: 'x' :: rest => rest
  | '0' :: 'X' :: rest => rest
  | rest => rest

def hexInteger? (characters : List Char) : Option Int := do
  let (negative, unsigned) := splitSign (stripAscii (foldDigits characters))
  let digits ← separatedDigits? Hex.isDigit (splitMarker unsigned)
  let value ← Hex.number? digits
  some (if negative then -(value : Int) else value)

end ContractClient.Text
