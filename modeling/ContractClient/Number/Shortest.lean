import ContractClient.Number.Binary64

/-!
# The shortest decimal text of a number

`Binary64.shortestDigits` finds the decimal with the fewest digits that rounds to a given positive
number, and of those the nearest: for each number of digits it looks at the two decimals of that
length around the number, and takes the first length at which one of them lies in the interval of
values that round to the number. `Binary64.toText` writes such a decimal, positionally when its
first digit stands between the fourth place after the point and the sixteenth before it.
-/

namespace ContractClient.Binary64

/-- The values that round to `mantissa * 2 ^ exponent`, as multiples of `2 ^ (exponent - 2)`: the
lowest and the highest of them, which belong to the interval when the mantissa is even. -/
def roundingInterval (mantissa : Nat) (exponent : Int) : Nat × Nat :=
  let narrow := mantissa = 2 ^ 52 ∧ minExponent < exponent
  (4 * mantissa - (if narrow then 1 else 2), 4 * mantissa + 2)

/-- Whether the decimal `digits * 10 ^ place` rounds to `mantissa * 2 ^ exponent`. -/
def roundsTo (mantissa : Nat) (exponent : Int) (digits : Nat) (place : Int) : Bool :=
  let (low, high) := roundingInterval mantissa exponent
  let (up, down) := powerOfTwo (exponent - 2)
  let value := digits * 10 ^ place.toNat * down
  let unit := up * 10 ^ (-place).toNat
  if mantissa % 2 = 0 then low * unit ≤ value && value ≤ high * unit
  else low * unit < value && value < high * unit

def decimalLength (value : Nat) : Nat :=
  (Nat.toDigits 10 value).length

/-- The place of the first digit of `numerator / denominator`: the largest power of ten below it. -/
def leadingPlace (numerator denominator : Nat) : Int :=
  if denominator ≤ numerator then (decimalLength (numerator / denominator) : Int) - 1
  else -(decimalLength ((denominator + numerator - 1) / numerator - 1) : Int)

/-- The decimal of `count` digits next to a number that rounds to it, if there is one. -/
def decimalOfLength? (mantissa : Nat) (exponent : Int) (count : Nat) : Option (Nat × Int) :=
  let (up, down) := powerOfTwo exponent
  let place := leadingPlace (mantissa * up) down - (count : Int) + 1
  let numerator := mantissa * up * 10 ^ (-place).toNat
  let denominator := down * 10 ^ place.toNat
  let below := numerator / denominator
  let fitsBelow := roundsTo mantissa exponent below place
  let fitsAbove := roundsTo mantissa exponent (below + 1) place
  if fitsBelow && fitsAbove then some (roundQuotient numerator denominator, place)
  else if fitsBelow then some (below, place)
  else if fitsAbove then some (below + 1, place)
  else none

/-- The digits and the place of the last digit of the shortest decimal that rounds to a positive
number. Seventeen digits always suffice. -/
def shortestDigits (mantissa : Nat) (exponent : Int) : Nat × Int :=
  ((List.range 17).findSome? fun count => decimalOfLength? mantissa exponent (count + 1)).getD
    (mantissa, 0)

/-- A decimal without trailing zeros. The count bounds how many are removed. -/
def dropTrailingZeros : (count digits : Nat) → (place : Int) → Nat × Int
  | 0, digits, place => (digits, place)
  | count + 1, digits, place =>
    if digits % 10 = 0 ∧ digits ≠ 0 then dropTrailingZeros count (digits / 10) (place + 1)
    else (digits, place)

/-- Writes the positive decimal `digits * 10 ^ place`. -/
def decimalText (digits : Nat) (place : Int) : String :=
  let characters := Nat.toDigits 10 digits
  let point : Int := characters.length + place
  if -4 < point ∧ point ≤ 16 then
    if point ≤ 0 then
      "0." ++ String.ofList (List.replicate (-point).toNat '0' ++ characters)
    else if (characters.length : Int) ≤ point then
      String.ofList (characters ++ List.replicate (point - characters.length).toNat '0') ++ ".0"
    else
      String.ofList (characters.take point.toNat) ++ "." ++
        String.ofList (characters.drop point.toNat)
  else
    let power := point - 1
    let sign := if power < 0 then "-" else "+"
    let powerDigits := Nat.toDigits 10 power.natAbs
    let powerText := if powerDigits.length < 2 then '0' :: powerDigits else powerDigits
    let fraction := match characters.drop 1 with
      | [] => ""
      | rest => "." ++ String.ofList rest
    String.ofList (characters.take 1) ++ fraction ++ "e" ++ sign ++ String.ofList powerText

/-- The shortest text that is read back as the same number. -/
def toText : Binary64 → String
  | .notANumber => "nan"
  | .infinite negative => if negative then "-inf" else "inf"
  | .finite negative mantissa exponent =>
    let sign := if negative then "-" else ""
    if mantissa = 0 then sign ++ "0.0"
    else
      let (digits, place) := shortestDigits mantissa exponent
      let (digits, place) := dropTrailingZeros 17 digits place
      sign ++ decimalText digits place

end ContractClient.Binary64
