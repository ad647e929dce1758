import ContractClient.Crypto.Sha256

/-!
# Recoverable signatures on secp256k1

The curve `y² = x³ + 7` over the field of `fieldSize` elements, its group of `groupOrder` points
with the generator `generator`, deterministic signatures, and the recovery of the public key from a
signature. Points are added in projective form, where no division is needed; `Point.ofProjective`
divides once at the end.
-/

namespace ContractClient.Secp256k1

/-- The number of elements of the field of coordinates. -/
def fieldSize : Nat := 0xfffffffffffffffffffffffffffffffffffffffffffffffffffffffefffffc2f

def groupOrder : Nat := 0xfffffffffffffffffffffffffffffffebaaedce6af48a03bbfd25e8cd0364141

/-- The power of a number modulo another, by the binary digits of the exponent. The count bounds
the number of digits. -/
def powerLoop : (count : Nat) → (base exponent modulus accumulator : Nat) → Nat
  | 0, _, _, _, accumulator => accumulator
  | count + 1, base, exponent, modulus, accumulator =>
    if exponent = 0 then accumulator
    else
      powerLoop count (base * base % modulus) (exponent / 2) modulus
        (if exponent % 2 = 1 then accumulator * base % modulus else accumulator)

def power (base exponent modulus : Nat) : Nat :=
  powerLoop (exponent.log2 + 1) (base % modulus) exponent modulus (1 % modulus)

def inverse (value prime : Nat) : Nat :=
  power value (prime - 2) prime

def subtract (left right : Nat) : Nat :=
  (left + (fieldSize - right % fieldSize)) % fieldSize

/-- A point of the curve other than the one at infinity. -/
structure Point where
  x : Nat
  y : Nat
  deriving DecidableEq, Repr, Inhabited

/-- A point `(x / z², y / z³)`; the point at infinity has `z = 0`. -/
structure Projective where
  x : Nat
  y : Nat
  z : Nat
  deriving DecidableEq, Repr, Inhabited

def generator : Point where
  x := 0x79be667ef9dcbbac55a06295ce870b07029bfcdb2dce28d959f2815b16f81798
  y := 0x483ada7726a3c4655da4fbfc0e1108a8fd17b448a68554199c47d08ffb10d4b8

namespace Projective

def infinity : Projective := ⟨1, 1, 0⟩

def ofPoint (point : Point) : Projective := ⟨point.x, point.y, 1⟩

def double (point : Projective) : Projective :=
  if point.y = 0 ∨ point.z = 0 then infinity
  else
    let square := point.y * point.y % fieldSize
    let s := 4 * point.x * square % fieldSize
    let m := 3 * point.x * point.x % fieldSize
    let x := subtract (m * m) (2 * s)
    let y := subtract (m * subtract s x) (8 * square * square)
    ⟨x, y, 2 * point.y * point.z % fieldSize⟩

def add (left right : Projective) : Projective :=
  if left.z = 0 then right
  else if right.z = 0 then left
  else
    let leftSquare := left.z * left.z % fieldSize
    let rightSquare := right.z * right.z % fieldSize
    let u := left.x * rightSquare % fieldSize
    let v := right.x * leftSquare % fieldSize
    let s := left.y * rightSquare * right.z % fieldSize
    let t := right.y * leftSquare * left.z % fieldSize
    if u = v then
      if s = t then double left else infinity
    else
      let h := subtract v u
      let r := subtract t s
      let h2 := h * h % fieldSize
      let h3 := h * h2 % fieldSize
      let uh2 := u * h2 % fieldSize
      let x := subtract (subtract (r * r) h3) (2 * uh2)
      let y := subtract (r * subtract uh2 x) (s * h3)
      ⟨x, y, h * left.z * right.z % fieldSize⟩

/-- A multiple of a point, by the binary digits of the factor. The count bounds their number. -/
def multiplyLoop : (count factor : Nat) → Projective → Projective
  | 0, _, _ => infinity
  | count + 1, factor, point =>
    if factor = 0 then infinity
    else
      let twice := double (multiplyLoop count (factor / 2) point)
      if factor % 2 = 1 then add twice point else twice

def multiply (factor : Nat) (point : Projective) : Projective :=
  multiplyLoop (factor.log2 + 1) factor point

/-- The coordinates of a point; the point at infinity has none. -/
def toPoint? (point : Projective) : Option Point :=
  if point.z % fieldSize = 0 then none
  else
    let scale := inverse point.z fieldSize
    let square := scale * scale % fieldSize
    some ⟨point.x * square % fieldSize, point.y * square * scale % fieldSize⟩

end Projective

def multipleOfGenerator? (factor : Nat) : Option Point :=
  (Projective.multiply factor (.ofPoint generator)).toPoint?

def Point.toBytes (point : Point) : Bytes :=
  Bytes.ofNat 32 point.x ++ Bytes.ofNat 32 point.y

/-- The nonce of a deterministic signature: the first candidate of the generator that is keyed with
the secret and the digest, which counts modulo the order of the group. -/
def nonce (secret : Nat) (digest : Bytes) : Nat :=
  let key := Bytes.ofNat 32 secret ++ Bytes.ofNat 32 (Bytes.toNat digest % groupOrder)
  let v := List.replicate 32 (1 : UInt8)
  let k := Sha256.authenticate (Bytes.zeros 32) (v ++ [0x00] ++ key)
  let v := Sha256.authenticate k v
  let k := Sha256.authenticate k (v ++ [0x01] ++ key)
  let v := Sha256.authenticate k v
  Bytes.toNat (Sha256.authenticate k v)

/-- The parts of a recoverable signature. -/
structure RawSignature where
  r : Nat
  s : Nat
  /-- The parity of the ordinate of the ephemeral point. -/
  parity : Nat
  deriving DecidableEq, Repr, Inhabited

/-- Signs a digest with a given nonce. Of the two values of `s` that serve, the lower one is
taken, which flips the parity. -/
def signWithNonce (secret nonce : Nat) (digest : Bytes) : RawSignature :=
  let point := (multipleOfGenerator? nonce).getD ⟨0, 0⟩
  let s := inverse nonce groupOrder * (Bytes.toNat digest + point.x * secret) % groupOrder
  let low := 2 * s < groupOrder
  { r := point.x,
    s := if low then s else groupOrder - s,
    parity := if low then point.y % 2 else 1 - point.y % 2 }

def sign (secret : Nat) (digest : Bytes) : RawSignature :=
  signWithNonce secret (nonce secret digest) digest

/-- The point of the curve with a given abscissa and parity of the ordinate. -/
def lift? (x parity : Nat) : Option Point :=
  let square := (x * x * x + 7) % fieldSize
  let root := power square ((fieldSize + 1) / 4) fieldSize
  if root * root % fieldSize = square then
    some ⟨x, if root % 2 = parity then root else fieldSize - root⟩
  else none

/-- The public key that made a signature of a digest, if there is one. The point at infinity is
written with two zeros. -/
def recover? (signature : RawSignature) (digest : Bytes) : Option Point := do
  if signature.r % groupOrder = 0 ∨ signature.s % groupOrder = 0 then none
  let ephemeral ← lift? signature.r signature.parity
  let z := Bytes.toNat digest % groupOrder
  let left := Projective.multiply ((groupOrder - z) % groupOrder) (.ofPoint generator)
  let right := Projective.multiply signature.s (.ofPoint ephemeral)
  let key := Projective.multiply (inverse signature.r groupOrder) (left.add right)
  some (key.toPoint?.getD ⟨0, 0⟩)

end ContractClient.Secp256k1
