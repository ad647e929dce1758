import ContractClient.Signing.Signature
import ContractClient.Text.Integer

/-!
# Secret keys

A secret key signs digests until it is closed.
-/

namespace ContractClient

/-- A secret key. -/
structure SecretKey where
  secret : Nat
  address : Address
  closed : Bool := false
  deriving Inhabited

namespace SecretKey

def length : Nat := 32

/-- The bytes that pairs of hexadecimal digits write, with blanks between the pairs and around. -/
def octetsOfText? : List Char → Option Bytes
  | [] => some []
  | first :: rest =>
    if Text.isAsciiBlank first then octetsOfText? rest
    else match rest with
      | [] => none
      | second :: rest => do
        let high ← Hex.value? first
        let low ← Hex.value? second
        let octets ← octetsOfText? rest
        some (UInt8.ofNat (high * 16 + low) :: octets)

/-- A text without the marker at its start. -/
def withoutMarker : List Char → List Char
  | '0' :: 'x' :: rest => rest
  | '0' :: 'X' :: rest => rest
  | characters => characters

def octetsOf : Value → Outcome Bytes
  | .text characters => match octetsOfText? (withoutMarker characters.toList) with
    | some octets => .ok octets
    | none => malformed
  | .brokenText _ => malformed
  | .bytes octets => .ok octets
  | .buffer octets => .ok octets
  | _ => Outcome.fault (.validation "Private key must be hex str or bytes")
where
  /-- The failure of a text that is not in hexadecimal digits. -/
  malformed : Outcome Bytes :=
    Outcome.fault (.validation "Invalid private key format (key not shown for security)")

def ofSecret? (secret : Nat) : Option SecretKey :=
  if 0 < secret ∧ secret < Secp256k1.groupOrder then
    (Secp256k1.multipleOfGenerator? secret).map fun point =>
      { secret, address := Address.ofPublicKey point.toBytes }
  else none

def ofValue (value : Value) : Outcome SecretKey := do
  let octets ← octetsOf value
  match if octets.length = length then ofSecret? (Bytes.toNat octets) else none with
  | some key => return key
  | none => Outcome.fault (.validation "Invalid private key (key not shown for security)")

def checkOpen (key : SecretKey) : Outcome Unit :=
  if key.closed then
    Outcome.fault (.signer "Secret key has been wiped" .signer "" key.address.text)
  else .ok ()

def signatureOf (key : SecretKey) (digest : Bytes) : Signature :=
  .ofRaw (Secp256k1.sign key.secret digest)

def signDigest (key : SecretKey) (digest : Bytes) : Outcome Signature := do
  if digest.length ≠ Bytes.wordLength then
    Outcome.fault (.validation s!"Digest must be 32 bytes, got {digest.length}")
  key.checkOpen
  return key.signatureOf digest

def close (key : SecretKey) : SecretKey :=
  { key with closed := true }

/-- A key in one line, which does not show it. -/
def render (key : SecretKey) : String :=
  let state := if key.closed then "wiped" else "loaded"
  "SecretKey(address=" ++ Text.quote key.address.text ++ ", " ++ state ++ ")"

end SecretKey

end ContractClient
