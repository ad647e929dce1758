import ContractClient.Rlp
import ContractClient.Signing.Signature
import ContractClient.Transaction.Request

/-!
# Signed transactions

A transaction with a gas price is signed together with its chain id, and carries the chain id inside
the last part of its signature. A transaction with a fee cap and a priority fee stands behind the
byte of its type and carries the plain recovery id. What is signed is the digest of the payload.
-/

namespace ContractClient

/-- The byte in front of transactions with a fee cap and a priority fee. -/
def dynamicFeeType : UInt8 := 0x02

/-- The last part of the signature of a transaction with a gas price. -/
def vFromRecoveryId (recoveryId chainId : Int) : Int :=
  recoveryId + chainId * 2 + 35

/-- The recovery id inside the last part of a signature. -/
def recoveryIdFromV (v chainId : Int) : Outcome Int :=
  let recoveryId := v - chainId * 2 - 35
  if recoveryId = 0 ∨ recoveryId = 1 then .ok recoveryId
  else Outcome.fault (.validation s!"v={v} is not an EIP-155 value for chain {chainId}")

/-- The hash under which a node will know a signed transaction. -/
def transactionHash (raw : Bytes) : String :=
  Data.ofBytes (Keccak.digest raw)

namespace TransactionRequest

/-- The fields that every signed transaction has. -/
structure Signable where
  nonce : Nat
  chainId : Nat
  gas : Nat
  deriving DecidableEq, Repr

/-- How a signed transaction pays. -/
inductive Fee where
  | legacy (gasPrice : Nat)
  | dynamic (maxFeePerGas maxPriorityFeePerGas : Nat)
  deriving DecidableEq, Repr

def requireField {α : Type} (name signer : String) : Option α → Outcome α
  | some value => .ok value
  | none => Outcome.fault (.missingField name signer)

/-- What a request pays, or the fee that it does not name. -/
def feeFor (request : TransactionRequest) (signer : String) : Outcome Fee := do
  if request.hasDynamicFee then
    return .dynamic (← requireField "max_fee_per_gas" signer request.maxFeePerGas)
      (← requireField "max_priority_fee_per_gas" signer request.maxPriorityFeePerGas)
  else return .legacy (← requireField "gas_price" signer request.gasPrice)

/-- The fields that must be set before a request is signed. -/
def signableFor (request : TransactionRequest) (signer : String := "") :
    Outcome (Signable × Fee) := do
  request.checkFeeModel
  let nonce ← requireField "nonce" signer request.nonce
  let chainId ← requireField "chain_id" signer request.chainId
  let gas ← requireField "gas" signer request.gas
  return ({ nonce, chainId, gas }, ← request.feeFor signer)

/-- Refuses a request that is not ready to be signed. -/
def checkSignable (request : TransactionRequest) (signer : String := "") : Outcome Unit := do
  discard (request.signableFor signer)

def recipientItem (request : TransactionRequest) : Rlp :=
  .string ((request.recipient.map Address.octets).getD [])

/-- The fields of a transaction up to its signature. -/
def items (request : TransactionRequest) (value : Nat) (signable : Signable) : Fee → List Rlp
  | .legacy gasPrice => [
    .nat signable.nonce, .nat gasPrice, .nat signable.gas, request.recipientItem, .nat value,
    .string request.data]
  | .dynamic maxFeePerGas maxPriorityFeePerGas => [
    .nat signable.chainId, .nat signable.nonce, .nat maxPriorityFeePerGas, .nat maxFeePerGas,
    .nat signable.gas, request.recipientItem, .nat value, .string request.data, .list []]

/-- The value that a transaction transfers; nothing is no value. -/
def requireValue (request : TransactionRequest) : Outcome Nat :=
  match request.value with
  | some value => .ok value
  | none => Outcome.condition .wrongKind

def signingPayload (request : TransactionRequest) : Outcome Bytes := do
  let (signable, fee) ← request.signableFor
  let value ← request.requireValue
  let items := request.items value signable fee
  match fee with
  | .dynamic _ _ => return dynamicFeeType :: (Rlp.list items).encode
  | .legacy _ =>
    return (Rlp.list (items ++ [.nat signable.chainId, .nat 0, .nat 0])).encode

def signingDigest (request : TransactionRequest) : Outcome Bytes := do
  return Keccak.digest (← request.signingPayload)

def encodeSigned (request : TransactionRequest) (signature : Signature) : Outcome Bytes := do
  let (signable, fee) ← request.signableFor
  let value ← request.requireValue
  let items := request.items value signable fee
  let proof := [Rlp.nat signature.r, Rlp.nat signature.s]
  match fee with
  | .dynamic _ _ =>
    return dynamicFeeType :: (Rlp.list (items ++ .nat signature.recoveryId :: proof)).encode
  | .legacy _ =>
    let v := vFromRecoveryId signature.recoveryId signable.chainId
    return (Rlp.list (items ++ .nat v.toNat :: proof)).encode

end TransactionRequest

end ContractClient
