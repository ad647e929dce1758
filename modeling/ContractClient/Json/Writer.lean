import ContractClient.Value

/-!
# Writing JSON

`Json.write` writes a value in ASCII: characters outside it are escaped as one or two units of four
hexadecimal digits. Sequences of all kinds are written as lists, byte strings as the text of their
data, and numbers that are not finite as the words that `Json.read?` accepts.
-/

namespace ContractClient.Json

def escapeUnit (unit : Nat) : List Char :=
  '\\' :: 'u' :: Hex.digits 4 unit

def escape (codePoint : Nat) : List Char :=
  if codePoint = '\x22'.toNat ∨ codePoint = '\\'.toNat then ['\\', Char.ofNat codePoint]
  else if 0x20 ≤ codePoint ∧ codePoint < 0x7f then [Char.ofNat codePoint]
  else if codePoint < 0x10000 then escapeUnit codePoint
  else
    let offset := codePoint - 0x10000
    escapeUnit (0xd800 + offset / 0x400) ++ escapeUnit (0xdc00 + offset % 0x400)

def writeCodePoints (codePoints : List Nat) : String :=
  String.ofList ('\x22' :: (codePoints.flatMap escape ++ ['\x22']))

def writeText (text : String) : String :=
  writeCodePoints (text.toList.map Char.toNat)

/-- A number with a fraction or an exponent, or a word for it. -/
def writeFloat : Binary64 → String
  | .notANumber => "NaN"
  | .infinite negative => if negative then "-Infinity" else "Infinity"
  | number => number.toText

mutual

def write : Value → String
  | .null => "null"
  | .bool value => if value then "true" else "false"
  | .int value => toString value
  | .float value => writeFloat value
  | .text value => writeText value
  | .brokenText codePoints => writeCodePoints codePoints
  | .bytes octets => writeText (Hex.text octets)
  | .buffer octets => writeText (Hex.text octets)
  | .hash octets => writeText (Hex.text octets)
  | .list items => "[" ++ ",".intercalate (writeAll items) ++ "]"
  | .tuple items => "[" ++ ",".intercalate (writeAll items) ++ "]"
  | .sequence _ _ items => "[" ++ ",".intercalate (writeAll items) ++ "]"
  | .dict entries => "\x7b" ++ ",".intercalate (writeEntries entries) ++ "\x7d"

def writeAll : List Value → List String
  | [] => []
  | item :: items => write item :: writeAll items

def writeEntries : List (String × Value) → List String
  | [] => []
  | (key, value) :: entries => (writeText key ++ ":" ++ write value) :: writeEntries entries

end

end ContractClient.Json
