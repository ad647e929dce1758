import ContractClient.Bytes

/-!
# SHA-256 and its keyed form

The hash with 64-byte blocks and a 32-byte digest, and the message authentication code built on it.
-/

namespace ContractClient.Sha256

abbrev State := Vector UInt32 8

/-- The chaining words before the first block. -/
def initial : State := #v[
  0x6a09e667, 0xbb67ae85, 0x3c6ef372, 0xa54ff53a, 0x510e527f, 0x9b05688c, 0x1f83d9ab, 0x5be0cd19]

def roundConstants : List UInt32 := [
  0x428a2f98, 0x71374491, 0xb5c0fbcf, 0xe9b5dba5, 0x3956c25b, 0x59f111f1, 0x923f82a4, 0xab1c5ed5,
  0xd807aa98, 0x12835b01, 0x243185be, 0x550c7dc3, 0x72be5d74, 0x80deb1fe, 0x9bdc06a7, 0xc19bf174,
  0xe49b69c1, 0xefbe4786, 0x0fc19dc6, 0x240ca1cc, 0x2de92c6f, 0x4a7484aa, 0x5cb0a9dc, 0x76f988da,
  0x983e5152, 0xa831c66d, 0xb00327c8, 0xbf597fc7, 0xc6e00bf3, 0xd5a79147, 0x06ca6351, 0x14292967,
  0x27b70a85, 0x2e1b2138, 0x4d2c6dfc, 0x53380d13, 0x650a7354, 0x766a0abb, 0x81c2c92e, 0x92722c85,
  0xa2bfe8a1, 0xa81a664b, 0xc24b8b70, 0xc76c51a3, 0xd192e819, 0xd6990624, 0xf40e3585, 0x106aa070,
  0x19a4c116, 0x1e376c08, 0x2748774c, 0x34b0bcb5, 0x391c0cb3, 0x4ed8aa4a, 0x5b9cca4f, 0x682e6ff3,
  0x748f82ee, 0x78a5636f, 0x84c87814, 0x8cc70208, 0x90befffa, 0xa4506ceb, 0xbef9a3f7, 0xc67178f2]

def rotate (value : UInt32) (amount : Nat) : UInt32 :=
  (value >>> UInt32.ofNat amount) ||| (value <<< UInt32.ofNat (32 - amount))

/-- The word that four bytes write, most significant first. -/
def wordOfBytes (octets : Bytes) : UInt32 :=
  octets.foldl (fun value octet => value * 256 + octet.toUInt32) 0

def blockWords (block : Bytes) : List UInt32 :=
  (List.range 16).map fun position => wordOfBytes ((block.drop (4 * position)).take 4)

/-- Extends the message schedule, newest word first, by `count` words. -/
def extend : (count : Nat) → List UInt32 → List UInt32
  | 0, newestFirst => newestFirst
  | count + 1, newestFirst =>
    let back (distance : Nat) : UInt32 := newestFirst.getD (distance - 1) 0
    let small := rotate (back 15) 7 ^^^ rotate (back 15) 18 ^^^ (back 15 >>> 3)
    let large := rotate (back 2) 17 ^^^ rotate (back 2) 19 ^^^ (back 2 >>> 10)
    extend count ((back 16 + small + back 7 + large) :: newestFirst)

/-- The sixty-four words of the message schedule of a block. -/
def schedule (block : Bytes) : List UInt32 :=
  (extend 48 (blockWords block).reverse).reverse

def round (state : State) (input : UInt32 × UInt32) : State :=
  let (constant, word) := input
  let e := state[4]
  let a := state[0]
  let choice := (e &&& state[5]) ^^^ (~~~ e &&& state[6])
  let majority := (a &&& state[1]) ^^^ (a &&& state[2]) ^^^ (state[1] &&& state[2])
  let first := state[7] + (rotate e 6 ^^^ rotate e 11 ^^^ rotate e 25) + choice + constant + word
  let second := (rotate a 2 ^^^ rotate a 13 ^^^ rotate a 22) + majority
  #v[first + second, a, state[1], state[2], state[3] + first, e, state[5], state[6]]

def compress (state : State) (block : Bytes) : State :=
  let mixed := (roundConstants.zip (schedule block)).foldl round state
  Vector.ofFn fun position => state[position] + mixed[position]

/-- A message completed to whole blocks: a marker, zeros, and the length in bits. -/
def pad (message : Bytes) : Bytes :=
  message ++ 0x80 :: (Bytes.zeros ((119 - message.length % 64) % 64) ++
    Bytes.ofNat 8 (8 * message.length))

def compressBlocks : (count : Nat) → (message : Bytes) → State → State
  | 0, _, state => state
  | count + 1, message, state =>
    compressBlocks count (message.drop 64) (compress state (message.take 64))

def digest (message : Bytes) : Bytes :=
  let padded := pad message
  (compressBlocks (padded.length / 64) padded initial).toList.flatMap fun word =>
    Bytes.ofNat 4 word.toNat

def authenticate (key message : Bytes) : Bytes :=
  let key := if 64 < key.length then digest key else key
  let key := key ++ Bytes.zeros (64 - key.length)
  digest (key.map (· ^^^ 0x5c) ++ digest (key.map (· ^^^ 0x36) ++ message))

end ContractClient.Sha256
