import ContractClient.Signing.SecretKey
import ContractClient.Transaction.Envelope

/-!
# Transactions given by their fields

An account takes a transaction as a dictionary of named fields. Fields with a type give a
transaction that stands behind the byte of its type and ends with the parity and the parts of its
signature; fields without a type give one with a single gas price, which carries its chain id inside
the last part of its signature. A field that is missing or has a value of the wrong kind is refused,
but a transaction without a recipient creates a contract.
-/

namespace ContractClient

/-- A transaction that was read from its fields. -/
inductive FieldTransaction where
  | legacy (chainId : Nat) (items : List Rlp)
  | typed (type : UInt8) (items : List Rlp)
  deriving Inhabited

namespace FieldTransaction

def number (fields : Dict) (name : String) : Outcome Nat :=
  match Dict.get? fields name with
  | some (.int (.ofNat number)) => .ok number
  | _ => Outcome.condition .wrongKind

/-- The recipient, which must be written with its capitals. -/
def recipient (fields : Dict) : Outcome Bytes :=
  match Dict.get? fields "to" with
  | none => .ok []
  | some (.text characters) => match Address.ofText? characters.toList with
    | some address =>
      if address.text = characters then .ok address.octets else Outcome.condition .wrongKind
    | none => Outcome.condition .wrongKind
  | _ => Outcome.condition .wrongKind

def data (fields : Dict) : Outcome Bytes :=
  match Dict.get? fields "data" with
  | some (.bytes octets) => .ok octets
  | _ => Outcome.condition .wrongKind

/-- The access list. Nobody lists any access here. -/
def accessList (fields : Dict) : Outcome (List Rlp) :=
  match Dict.get? fields "accessList" with
  | some (.list []) => .ok []
  | _ => Outcome.condition .wrongKind

/-- The items of a transaction with a single gas price. -/
def legacyItems (fields : Dict) : Outcome (List Rlp) := do
  return [
    .nat (← number fields "nonce"), .nat (← number fields "gasPrice"),
    .nat (← number fields "gas"), .string (← recipient fields), .nat (← number fields "value"),
    .string (← data fields)]

/-- The items of a transaction with a fee cap and a priority fee. -/
def dynamicFeeItems (fields : Dict) : Outcome (List Rlp) := do
  return [
    .nat (← number fields "chainId"), .nat (← number fields "nonce"),
    .nat (← number fields "maxPriorityFeePerGas"), .nat (← number fields "maxFeePerGas"),
    .nat (← number fields "gas"), .string (← recipient fields), .nat (← number fields "value"),
    .string (← data fields), .list (← accessList fields)]

def ofFields (fields : Dict) : Outcome FieldTransaction := do
  match Dict.get? fields "type" with
  | none => return .legacy (← number fields "chainId") (← legacyItems fields)
  | some (.int 2) => return .typed 2 (← dynamicFeeItems fields)
  | _ => Outcome.condition .wrongKind

/-- The bytes whose digest is signed. -/
def payload : FieldTransaction → Bytes
  | legacy chainId items => (Rlp.list (items ++ [.nat chainId, .nat 0, .nat 0])).encode
  | typed type items => type :: (Rlp.list items).encode

def signedWith (signature : Secp256k1.RawSignature) : FieldTransaction → Bytes
  | legacy chainId items =>
    let v := signature.parity + (35 + 2 * chainId)
    (Rlp.list (items ++ [.nat v, .nat signature.r, .nat signature.s])).encode
  | typed type items =>
    let proof := [Rlp.nat signature.parity, .nat signature.r, .nat signature.s]
    type :: (Rlp.list (items ++ proof)).encode

end FieldTransaction

/-- Signs a transaction that is given by its fields. -/
def SecretKey.signFields (key : SecretKey) (fields : Dict) : Outcome Bytes := do
  let transaction ← FieldTransaction.ofFields fields
  return transaction.signedWith (Secp256k1.sign key.secret (Keccak.digest transaction.payload))

/-- The fields of a request as an account takes them. -/
def TransactionRequest.accountFields (request : TransactionRequest) : Dict :=
  let common := [
    ("nonce", .ofNat? request.nonce), ("gas", .ofNat? request.gas),
    ("value", .ofNat? request.value), ("data", .bytes request.data),
    ("chainId", .ofNat? request.chainId)]
  let recipient := match request.recipient with
    | some address => [("to", address.toValue)]
    | none => []
  let fees :=
    if request.isDynamicFee then [
      ("type", .int dynamicFeeType.toNat), ("maxFeePerGas", .ofNat? request.maxFeePerGas),
      ("maxPriorityFeePerGas", .ofNat? request.maxPriorityFeePerGas), ("accessList", .list [])]
    else [("gasPrice", .ofNat? request.gasPrice)]
  common ++ recipient ++ fees

end ContractClient
