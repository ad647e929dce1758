import ContractClient.Failure

/-!
# Integers and floating point numbers together

A numeral is an integer of any size or a floating point number. Integers stay exact among
themselves; where an integer meets a floating point number it is rounded first, and an integer out
of range cannot be.
-/

namespace ContractClient

/-- An integer or a floating point number. -/
inductive Numeral where
  | int (value : Int)
  | float (value : Binary64)
  deriving DecidableEq, Repr, Inhabited

namespace Numeral

/-- The numeral that a value gives; flags count as zero and one. -/
def ofValue : Value → Outcome Numeral
  | .int value => .ok (int value)
  | .bool flag => .ok (int (if flag then 1 else 0))
  | .float value => .ok (float value)
  | _ => Outcome.condition .wrongKind

def toValue : Numeral → Value
  | int value => .int value
  | float value => .float value

def roundInt (value : Int) : Outcome Binary64 :=
  let rounded := Binary64.ofInt value
  if rounded.isFinite then .ok rounded else Outcome.condition .overflow

def toBinary64 : Numeral → Outcome Binary64
  | int value => roundInt value
  | float value => .ok value

def lt (left right : Numeral) : Bool :=
  match left, right with
  | int left, int right => left < right
  | float left, float right => left.lt right
  | int left, float right => match right with
    | .notANumber => false
    | .infinite negative => !negative
    | right => (left : Rat) < right.toRat?.getD 0
  | float left, int right => match left with
    | .notANumber => false
    | .infinite negative => negative
    | left => left.toRat?.getD 0 < (right : Rat)

/-- The lower one of two numerals; the first one unless the second one is below it. -/
def min (left right : Numeral) : Numeral :=
  if right.lt left then right else left

/-- Whether a numeral is at most another one. What is not a number is comparable with nothing. -/
def le (left right : Numeral) : Bool :=
  left != float .notANumber && right != float .notANumber && !right.lt left

def add (left right : Numeral) : Outcome Numeral :=
  match left, right with
  | int left, int right => .ok (int (left + right))
  | left, right => do return float ((← left.toBinary64).add (← right.toBinary64))

def mul (left right : Numeral) : Outcome Numeral :=
  match left, right with
  | int left, int right => .ok (int (left * right))
  | left, right => do return float ((← left.toBinary64).mul (← right.toBinary64))

def divNat (numeral : Numeral) (divisor : Nat) : Outcome Binary64 :=
  match numeral with
  | int value =>
    let quotient := Binary64.ofRat ((value : Rat) / (divisor : Rat))
    if quotient.isFinite then .ok quotient else Outcome.condition .overflow
  | float value => match value.div? (Binary64.ofInt divisor) with
    | some quotient => .ok quotient
    | none => Outcome.condition .divisionByZero

/-- Whether all powers from an exponent on are surely out of range, and whether they are too large
or too small. A thousandth of the exponent decides. -/
def extremePower? (base : Rat) (exponent : Nat) : Option Bool :=
  let thousandth := base ^ (1000 : Nat)
  let steps := exponent / 1000
  if 1 < base ∧ 1100 < thousandth.floor.toNat.log2 * steps then some true
  else if 0 < base ∧ base < 1 ∧ 1200 < (thousandth⁻¹).floor.toNat.log2 * steps then some false
  else none

/-- A finite floating point number raised to a natural power, rounded once. A power that is out of
range cannot be rounded. -/
def powFinite (negative : Bool) (magnitude : Rat) (exponent : Nat) : Outcome Binary64 :=
  let negative := negative && exponent % 2 = 1
  let signed (power : Rat) : Binary64 :=
    Binary64.ofRat (if negative then -power else power)
  if magnitude = 0 then .ok (if exponent = 0 then Binary64.ofInt 1 else Binary64.zero)
  else match extremePower? magnitude exponent with
    | some true => Outcome.condition .overflow
    | some false => .ok Binary64.zero
    | none =>
      let power := signed (magnitude ^ exponent)
      if power.isFinite then .ok power else Outcome.condition .overflow

def pow (base : Numeral) (exponent : Nat) : Outcome Numeral :=
  match base with
  | int base => .ok (int (base ^ exponent))
  | float base => match base with
    | .notANumber =>
      .ok (float (if exponent = 0 then Binary64.ofInt 1 else .notANumber))
    | .infinite negative =>
      .ok (float (if exponent = 0 then Binary64.ofInt 1
        else .infinite (negative && exponent % 2 = 1)))
    | finite => do
      let value := finite.toRat?.getD 0
      return float (← powFinite finite.isNegative (if value < 0 then -value else value) exponent)

/-- The integer nearest to a rational number; of two the even one. -/
def roundToEven (value : Rat) : Int :=
  let whole := value.floor
  let rest := value - (whole : Rat)
  if rest < 1 / 2 then whole
  else if 1 / 2 < rest then whole + 1
  else if whole % 2 = 0 then whole else whole + 1

/-- A number rounded to a number of decimal places. -/
def roundPlaces (value : Binary64) (places : Nat) : Binary64 :=
  match value.toRat? with
  | none => value
  | some exact =>
    let scaled := roundToEven (exact * (10 : Rat) ^ places)
    if scaled = 0 then .finite value.isNegative 0 Binary64.minExponent
    else Binary64.ofRat ((scaled : Rat) / (10 : Rat) ^ places)

end Numeral

end ContractClient
