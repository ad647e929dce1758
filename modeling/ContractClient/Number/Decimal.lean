import ContractClient.Number.Binary64

/-!
# Reading decimals

`Binary64.ofDecimal` is the number nearest to `digits * 10 ^ place`. `Decimal.scan?` recognises a
decimal text: an optional sign, digits with at most one point among them, and an optional exponent.
-/

namespace ContractClient

namespace Binary64

/-- The number nearest to `± digits * 10 ^ place`. Decimals far outside the range are decided by the
place of their first digit alone. -/
def ofDecimal (negative : Bool) (digits : Nat) (place : Int) : Binary64 :=
  if digits = 0 then .finite negative 0 minExponent
  else
    let point : Int := ((Nat.toDigits 10 digits).length : Int) + place
    if 400 < point then .infinite negative
    else if point < -400 then .finite negative 0 minExponent
    else round negative (digits * 10 ^ place.toNat) (10 ^ (-place).toNat)

end Binary64

namespace Decimal

/-- The value of a run of ASCII digits. -/
def ofDigits (characters : List Char) : Nat :=
  characters.foldl (fun value character => value * 10 + (character.toNat - '0'.toNat)) 0

/-- The parts of a decimal text. -/
structure Scan where
  negative : Bool
  /-- The digits before and after the point, together. -/
  digits : Nat
  /-- The place of the last digit. -/
  place : Int
  deriving DecidableEq

/-- Reads an exponent `e`, an optional sign and digits, to the end of the text. No exponent at all
is the exponent zero. -/
def scanExponent? : List Char → Option Int
  | [] => some 0
  | marker :: rest =>
    if marker = 'e' ∨ marker = 'E' then
      let (negative, digits) := match rest with
        | '-' :: digits => (true, digits)
        | '+' :: digits => (false, digits)
        | digits => (false, digits)
      if digits.isEmpty || !digits.all Char.isDigit then none
      else some (if negative then -(ofDigits digits : Int) else ofDigits digits)
    else none

/-- Recognises a decimal text with at least one digit. -/
def scan? (characters : List Char) : Option Scan :=
  let (negative, unsigned) := match characters with
    | '-' :: rest => (true, rest)
    | '+' :: rest => (false, rest)
    | rest => (false, rest)
  let whole := unsigned.takeWhile Char.isDigit
  let afterWhole := unsigned.dropWhile Char.isDigit
  let (fraction, afterFraction) := match afterWhole with
    | '.' :: rest => (rest.takeWhile Char.isDigit, rest.dropWhile Char.isDigit)
    | rest => ([], rest)
  if whole.isEmpty && fraction.isEmpty then none
  else
    (scanExponent? afterFraction).map fun exponent =>
      { negative, digits := ofDigits (whole ++ fraction), place := exponent - fraction.length }

/-- The number written by a decimal text, or by one of the names of infinity and of what is not a
number, in any case of letters. -/
def toBinary64? (characters : List Char) : Option Binary64 :=
  match scan? characters with
  | some decimal => some (Binary64.ofDecimal decimal.negative decimal.digits decimal.place)
  | none =>
    let (negative, unsigned) := match characters with
      | '-' :: rest => (true, rest)
      | '+' :: rest => (false, rest)
      | rest => (false, rest)
    let name := String.ofList (unsigned.map Char.toLower)
    if name = "inf" || name = "infinity" then some (.infinite negative)
    else if name = "nan" then some .notANumber
    else none

end Decimal

end ContractClient
