import ContractClient.Crypto.Secp256k1
import ContractClient.Wire.Address

/-!
# Signatures

A signature of a digest from which the address of the signer can be recovered. The parity of the
point that was used tells apart the two keys that would fit.
-/

namespace ContractClient

/-- A signature that names its signer. -/
structure Signature where
  r : Nat
  s : Nat
  /-- The parity of the point that was used: zero or one. -/
  recoveryId : Nat
  /-- Whether all parts were given as numbers. From flags no signer is recovered. -/
  isNumeric : Bool := true
  deriving DecidableEq, Repr, Inhabited

namespace Signature

def partOf : Value → Outcome Int
  | .int number => .ok number
  | .bool flag => .ok (if flag then 1 else 0)
  | .float number => match number.truncate? with
    | some whole => .ok (if number.isIntegral || number.isNegative then whole else whole + 1)
    | none => .ok 0
  | _ => Outcome.condition .wrongKind

def inRange (part : Int) : Bool :=
  0 < part && part < Secp256k1.groupOrder

def isFlag : Value → Bool
  | .bool _ => true
  | _ => false

/-- Whether a value is a number with a fraction or an exponent. -/
def isFloat : Value → Bool
  | .float _ => true
  | _ => false

def outOfRange : Fault := .signer "Signature r/s out of range"

def create (r s recoveryId : Value) : Outcome Signature := do
  let first ← partOf r
  if !inRange first then Outcome.fault outOfRange
  let second ← partOf s
  if !inRange second then Outcome.fault outOfRange
  let parity ←
    if recoveryId.equalsInt 0 then pure 0
    else if recoveryId.equalsInt 1 then pure 1
    else do
      let text ← recoveryId.displayed
      Outcome.fault (.signer ("Invalid recovery id: " ++ text))
  if isFloat r || isFloat s then Outcome.condition .missingMember
  if isFloat recoveryId then Outcome.condition .wrongKind
  return {
    r := first.toNat, s := second.toNat, recoveryId := parity
    isNumeric := !isFlag r && !isFlag s && !isFlag recoveryId }

def ofRaw (raw : Secp256k1.RawSignature) : Signature :=
  { r := raw.r, s := raw.s, recoveryId := raw.parity }

/-- Both parts and the recovery id, which counts from 27 here. -/
def toBytes (signature : Signature) : Bytes :=
  Bytes.word signature.r ++ Bytes.word signature.s ++ [UInt8.ofNat (27 + signature.recoveryId)]

/-- The address of the signer of a digest, if there is one. -/
def recover? (signature : Signature) (digest : Bytes) : Option Address :=
  if signature.isNumeric then
    (Secp256k1.recover? ⟨signature.r, signature.s, signature.recoveryId⟩ digest).map fun point =>
      Address.ofPublicKey point.toBytes
  else none

def recoverAddress (signature : Signature) (digest : Bytes) : Outcome Address :=
  match signature.recover? digest with
  | some address => .ok address
  | none => Outcome.condition .badSignature

end Signature

end ContractClient
