/-!
# Blank characters

The characters that separate words: those of Unicode's bidirectional classes for white space,
paragraph and segment separators, and the space separators. `Text.strip` removes them from both
ends of a text.
-/

namespace ContractClient.Text

def isBlank (character : Char) : Bool :=
  let codePoint := character.toNat
  (0x9 ≤ codePoint && codePoint ≤ 0xd) || (0x1c ≤ codePoint && codePoint ≤ 0x20) ||
  codePoint == 0x85 || codePoint == 0xa0 || codePoint == 0x1680 ||
  (0x2000 ≤ codePoint && codePoint ≤ 0x200a) || codePoint == 0x2028 || codePoint == 0x2029 ||
  codePoint == 0x202f || codePoint == 0x205f || codePoint == 0x3000

/-- A text without the blanks at its end. -/
def stripRight (characters : List Char) : List Char :=
  (characters.reverse.dropWhile isBlank).reverse

/-- A text without the blanks at its two ends. -/
def strip (characters : List Char) : List Char :=
  stripRight (characters.dropWhile isBlank)

end ContractClient.Text
