import ContractClient.Hex

/-!
# Keccak-256

The sponge over the 1600-bit Keccak permutation with 136-byte blocks and a 32-byte digest, padded
with `0x01 … 0x80`. The state is a vector of twenty-five 64-bit lanes; lane `(x, y)` stands at
position `x + 5 * y`.
-/

namespace ContractClient.Keccak

abbrev State := Vector UInt64 25

/-- The state before anything is absorbed. -/
def initial : State := Vector.replicate 25 0

/-- The lane at column `x` and row `y`, both taken modulo five. -/
def lane (state : State) (x y : Nat) : UInt64 :=
  state.get ⟨x % 5 + 5 * (y % 5), by omega⟩

def rotate (value : UInt64) (amount : Nat) : UInt64 :=
  if amount = 0 then value
  else (value <<< UInt64.ofNat amount) ||| (value >>> UInt64.ofNat (64 - amount))

def rotations : Vector Nat 25 := #v[
  0, 1, 62, 28, 27, 36, 44, 6, 55, 20, 3, 10, 43, 25, 39, 41, 45, 15, 21, 8, 18, 2, 61, 56, 14]

/-- The constant that every round adds to the first lane. -/
def roundConstants : List UInt64 := [
  0x0000000000000001, 0x0000000000008082, 0x800000000000808a, 0x8000000080008000,
  0x000000000000808b, 0x0000000080000001, 0x8000000080008081, 0x8000000000008009,
  0x000000000000008a, 0x0000000000000088, 0x0000000080008009, 0x000000008000000a,
  0x000000008000808b, 0x800000000000008b, 0x8000000000008089, 0x8000000000008003,
  0x8000000000008002, 0x8000000000000080, 0x000000000000800a, 0x800000008000000a,
  0x8000000080008081, 0x8000000000008080, 0x0000000080000001, 0x8000000080008008]

def parities (state : State) : Vector UInt64 5 :=
  Vector.ofFn fun x =>
    lane state x 0 ^^^ lane state x 1 ^^^ lane state x 2 ^^^ lane state x 3 ^^^ lane state x 4

/-- Adds to every lane the parities of two neighbouring columns. -/
def theta (state : State) : State :=
  let parity := parities state
  let change : Vector UInt64 5 := Vector.ofFn fun x =>
    parity.get ⟨(x.val + 4) % 5, by omega⟩ ^^^ rotate (parity.get ⟨(x.val + 1) % 5, by omega⟩) 1
  Vector.ofFn fun position => state[position] ^^^ change.get ⟨position.val % 5, by omega⟩

/-- Rotates every lane and moves it to its new position. -/
def rhoPi (state : State) : State :=
  Vector.ofFn fun position =>
    let x := position.val % 5
    let y := position.val / 5
    let source := (x + 3 * y) % 5 + 5 * (x % 5)
    rotate (state.get ⟨source, by omega⟩) (rotations.get ⟨source, by omega⟩)

def chi (state : State) : State :=
  Vector.ofFn fun position =>
    let x := position.val % 5
    let y := position.val / 5
    lane state x y ^^^ (~~~ lane state (x + 1) y &&& lane state (x + 2) y)

def round (state : State) (constant : UInt64) : State :=
  let state := chi (rhoPi (theta state))
  state.set 0 (state[0] ^^^ constant)

def permute (state : State) : State :=
  roundConstants.foldl round state

def rate : Nat := 136

/-- The lane that eight bytes write, least significant first. -/
def laneOfBytes (octets : Bytes) : UInt64 :=
  octets.foldr (fun octet value => value * 256 + octet.toUInt64) 0

/-- The eight bytes of a lane, least significant first. -/
def bytesOfLane (value : UInt64) : Bytes :=
  (List.range 8).map fun position => (value >>> UInt64.ofNat (8 * position)).toUInt8

def absorb (state : State) (block : Bytes) : State :=
  permute <| Vector.ofFn fun position =>
    if position.val < 17 then
      state[position] ^^^ laneOfBytes ((block.drop (8 * position.val)).take 8)
    else state[position]

def pad (message : Bytes) : Bytes :=
  let missing := rate - message.length % rate
  if missing = 1 then message ++ [0x81]
  else message ++ 0x01 :: (Bytes.zeros (missing - 2) ++ [0x80])

def absorbBlocks : (count : Nat) → (message : Bytes) → State → State
  | 0, _, state => state
  | count + 1, message, state =>
    absorbBlocks count (message.drop rate) (absorb state (message.take rate))

def digest (message : Bytes) : Bytes :=
  let padded := pad message
  let state := absorbBlocks (padded.length / rate) padded initial
  bytesOfLane (lane state 0 0) ++ bytesOfLane (lane state 1 0) ++ bytesOfLane (lane state 2 0) ++
    bytesOfLane (lane state 3 0)

/-- The digest of a text in UTF-8. -/
def digestText (text : String) : Bytes :=
  digest (Bytes.ofText text)

end ContractClient.Keccak
