/-!
# Binary floating point numbers

`Binary64` is the set of double precision numbers as exact values: a finite number is a sign, a
mantissa and a power of two. Every operation computes the exact result over the rationals and rounds
it once, to nearest with ties to the even mantissa (`Binary64.round`), so that laws about arithmetic
reduce to laws about one rounding function.
-/

namespace ContractClient

-- Powers, maxima and sums of numbers are those of the core library, also next to libraries that
-- bring their own.
attribute [scoped instance (2000)] instPowNat Rat.instMax Rat.instMin Zero.ofOfNat0
attribute [default_instance 20000] instPowNat

/-- A double precision number. A finite number is `± mantissa * 2 ^ exponent`. -/
inductive Binary64 where
  | finite (negative : Bool) (mantissa : Nat) (exponent : Int)
  | infinite (negative : Bool)
  | notANumber
  deriving DecidableEq, Repr, Inhabited

namespace Binary64

def minExponent : Int := -1074

def maxExponent : Int := 971

/-- The power of two `2 ^ exponent` as a fraction, numerator first. -/
def powerOfTwo (exponent : Int) : Nat × Nat :=
  (2 ^ exponent.toNat, 2 ^ (-exponent).toNat)

/-- The exponent of the largest power of two that is at most `numerator / denominator`. -/
def magnitude (numerator denominator : Nat) : Int :=
  let guess : Int := (numerator.log2 : Int) - (denominator.log2 : Int)
  let (up, down) := powerOfTwo guess
  if up * denominator ≤ numerator * down then guess else guess - 1

/-- A quotient rounded to the nearest natural number, a tie going to the even one. -/
def roundQuotient (numerator denominator : Nat) : Nat :=
  let quotient := numerator / denominator
  let remainder := numerator % denominator
  if 2 * remainder < denominator then quotient
  else if denominator < 2 * remainder then quotient + 1
  else if quotient % 2 = 0 then quotient else quotient + 1

/-- The exponent with which `numerator / denominator` is represented. -/
def gridExponent (numerator denominator : Nat) : Int :=
  max (magnitude numerator denominator - 52) minExponent

/-- The number nearest to `± numerator / denominator`, a tie going to the even mantissa. Quotients
beyond the largest finite number round to infinity. -/
def round (negative : Bool) (numerator denominator : Nat) : Binary64 :=
  if numerator = 0 then .finite negative 0 minExponent
  else
    let exponent := gridExponent numerator denominator
    let (up, down) := powerOfTwo exponent
    let mantissa := roundQuotient (numerator * down) (denominator * up)
    let (mantissa, exponent) :=
      if mantissa = 2 ^ 53 then (2 ^ 52, exponent + 1) else (mantissa, exponent)
    if maxExponent < exponent then .infinite negative else .finite negative mantissa exponent

/-- The number nearest to a rational number. -/
def ofRat (value : Rat) : Binary64 :=
  round (value.num < 0) value.num.natAbs value.den

/-- The number nearest to an integer. -/
def ofInt (value : Int) : Binary64 :=
  round (value < 0) value.natAbs 1

def zero : Binary64 := .finite false 0 minExponent

def toRat? : Binary64 → Option Rat
  | .finite negative mantissa exponent =>
    let (up, down) := powerOfTwo exponent
    let value : Rat := (mantissa * up : Nat) / (down : Nat)
    some (if negative then -value else value)
  | _ => none

/-- Whether a number is a negative one, negative zero and negative infinity included. -/
def isNegative : Binary64 → Bool
  | .finite negative _ _ => negative
  | .infinite negative => negative
  | .notANumber => false

def isZero : Binary64 → Bool
  | .finite _ mantissa _ => mantissa = 0
  | _ => false

def isFinite : Binary64 → Bool
  | .finite _ _ _ => true
  | _ => false

/-- The strict order. Nothing is below or above what is not a number. -/
def lt (left right : Binary64) : Bool :=
  match left, right with
  | .notANumber, _ => false
  | _, .notANumber => false
  | .infinite true, .infinite true => false
  | .infinite true, _ => true
  | _, .infinite true => false
  | .infinite false, _ => false
  | .finite _ _ _, .infinite false => true
  | .finite _ _ _, .finite _ _ _ => left.toRat?.getD 0 < right.toRat?.getD 0

/-- Numerical equality: the two zeros are equal, and what is not a number equals nothing. -/
def same (left right : Binary64) : Bool :=
  match left, right with
  | .infinite a, .infinite b => a == b
  | .finite _ _ _, .finite _ _ _ => left.toRat? == right.toRat?
  | _, _ => false

/-- The sum of two numbers, rounded once. -/
def add (left right : Binary64) : Binary64 :=
  match left, right with
  | .notANumber, _ => .notANumber
  | _, .notANumber => .notANumber
  | .infinite s, .infinite t => if s = t then .infinite s else .notANumber
  | .infinite s, .finite _ _ _ => .infinite s
  | .finite _ _ _, .infinite t => .infinite t
  | .finite s m e, .finite t n f =>
    if m = 0 ∧ n = 0 then .finite (s && t) 0 minExponent
    else
      ofRat (((finite s m e).toRat?.getD 0) + ((finite t n f).toRat?.getD 0))

/-- The product of two numbers, rounded once. -/
def mul (left right : Binary64) : Binary64 :=
  match left, right with
  | .finite s m e, .finite t n f =>
    let (up, down) := powerOfTwo (e + f)
    round (s != t) (m * n * up) down
  | .notANumber, _ => .notANumber
  | _, .notANumber => .notANumber
  | .infinite s, other => if other.isZero then .notANumber else .infinite (s != other.isNegative)
  | other, .infinite s => if other.isZero then .notANumber else .infinite (s != other.isNegative)

/-- The quotient of two numbers, rounded once; a division by zero has no value here. -/
def div? (left right : Binary64) : Option Binary64 :=
  if right.isZero then none
  else
    some <| match left, right with
      | .finite s m e, .finite t n f =>
        let (up, down) := powerOfTwo (e - f)
        round (s != t) (m * up) (n * down)
      | .notANumber, _ => .notANumber
      | _, .notANumber => .notANumber
      | .infinite _, .infinite _ => .notANumber
      | .infinite s, other => .infinite (s != other.isNegative)
      | other, .infinite s => .finite (s != other.isNegative) 0 minExponent

def truncate? : Binary64 → Option Int
  | .finite negative mantissa exponent =>
    let (up, down) := powerOfTwo exponent
    let magnitude : Int := (mantissa * up / down : Nat)
    some (if negative then -magnitude else magnitude)
  | _ => none

/-- Whether a number is finite and has no fractional part. -/
def isIntegral : Binary64 → Bool
  | .finite _ mantissa exponent =>
    let (up, down) := powerOfTwo exponent
    mantissa * up % down = 0
  | _ => false

end Binary64

end ContractClient
