import ContractClient.Hex
import ContractClient.Text.Printable

/-!
# Quoted text

Messages show a text between quotes: single ones, unless the text holds single quotes and no double
ones. The backslash, the quote in use and the line breaks and tabs are escaped by name, every other
character that is not printable by its code in two, four or eight hexadecimal digits.
-/

namespace ContractClient.Text

/-- The quote around a text with the given code points. -/
def quoteFor (codePoints : List Nat) : Char :=
  if codePoints.contains '\x27'.toNat && !codePoints.contains '\x22'.toNat then '\x22' else '\x27'

def numericEscape (codePoint : Nat) : List Char :=
  if codePoint < 0x100 then '\\' :: 'x' :: Hex.digits 2 codePoint
  else if codePoint < 0x10000 then '\\' :: 'u' :: Hex.digits 4 codePoint
  else '\\' :: 'U' :: Hex.digits 8 codePoint

def escape (quote : Char) (printable : Nat → Bool) (codePoint : Nat) : List Char :=
  if codePoint = quote.toNat ∨ codePoint = '\\'.toNat then ['\\', Char.ofNat codePoint]
  else if codePoint = '\n'.toNat then ['\\', 'n']
  else if codePoint = '\r'.toNat then ['\\', 'r']
  else if codePoint = '\t'.toNat then ['\\', 't']
  else if printable codePoint then [Char.ofNat codePoint]
  else numericEscape codePoint

def quoteCodePoints (printable : Nat → Bool) (codePoints : List Nat) : String :=
  let quote := quoteFor codePoints
  String.ofList (quote :: (codePoints.flatMap (escape quote printable) ++ [quote]))

def quote (text : String) : String :=
  quoteCodePoints isPrintable (text.toList.map Char.toNat)

/-- A byte string between quotes, marked as one; bytes outside printable ASCII are escaped. -/
def quoteBytes (octets : Bytes) : String :=
  "b" ++ quoteCodePoints (fun octet => 0x20 ≤ octet && octet < 0x7f) (octets.map UInt8.toNat)

end ContractClient.Text
