import ContractClient.Contract.Instance
import ContractClient.Exchange.Failure

/-!
# Transactions as documents

Requests, signatures, pending transactions and what is set of drafts in documents, in which numbers
stand as texts of digits and bytes in hexadecimal digits. The fields of a request and of a policy
are given in tagged form.
-/

namespace ContractClient

namespace TransactionRequest

/-- The fields that a document gives. Data is given in hexadecimal digits. -/
def fieldsOfGiven (given : Value) : Dict :=
  given.entries.map fun (name, value) =>
    match value with
    | .text _ => (name, if name = "data" then .bytes value.asBytes else value)
    | value => (name, Tagged.decode value)

def ofGiven (given : Value) : Outcome TransactionRequest :=
  ofFields (fieldsOfGiven given)

def describeNumber (number : Option Nat) : Value :=
  .digits? (number.map fun number => number)

def describe (request : TransactionRequest) : Value :=
  .dict [
    ("from_address", Value.ofOption (addressText request.sender)),
    ("to", Value.ofOption (addressText request.recipient)),
    ("value", describeNumber request.value), ("data", .hex request.data),
    ("gas", describeNumber request.gas), ("gas_price", describeNumber request.gasPrice),
    ("max_fee_per_gas", describeNumber request.maxFeePerGas),
    ("max_priority_fee_per_gas", describeNumber request.maxPriorityFeePerGas),
    ("nonce", describeNumber request.nonce), ("chain_id", describeNumber request.chainId)]

end TransactionRequest

/-- The policy that a document gives, if it gives one. -/
def ConfirmationPolicy.ofGiven : Value → Outcome (Option ConfirmationPolicy)
  | .null => .ok none
  | given => (read given.untaggedFields).toOutcome.map some

/-- The setting that a name and a value give. A policy is given by its fields, which are read
first. -/
def MethodCall.Setting.ofGiven (name : String) (value : Value) : Outcome Setting :=
  match name with
  | "from_" => .ok (.sender value)
  | "gas" => .ok (.gas value)
  | "value" => .ok (.value value)
  | "nonce" => .ok (.nonce value)
  | "gas_price" => .ok (.gasPrice value)
  | "max_fee_per_gas" => .ok (.maxFeePerGas value)
  | "max_priority_fee_per_gas" => .ok (.maxPriorityFeePerGas value)
  | "confirmations" => .ok (.confirmations value)
  | "policy" => match value with
    | .dict fields => (ConfirmationPolicy.read fields).toOutcome.map fun policy => .policy policy
    | _ => .ok (.policy none)
  | _ => Outcome.condition .missingMember

/-- The configuration that a document gives; the standard one if it gives none. Its fees and its
policy are models of their own, which are read first. -/
def PipelineConfig.ofGiven (given : Value) : Outcome PipelineConfig := do
  let fields := given.untaggedFields
  match given.part "fees" with
  | .dict fees => discard (FeeDefaults.read (Tagged.decodeEntries fees)).toOutcome
  | _ => pure ()
  match given.part "confirmation" with
  | .dict policy => discard (ConfirmationPolicy.read (Tagged.decodeEntries policy)).toOutcome
  | _ => pure ()
  (read fields).toOutcome

namespace PendingTransaction

def ofGiven (given : Value) : Outcome PendingTransaction := do
  let policy ← ConfirmationPolicy.ofGiven (given.part "policy")
  let request ← match given.part "request" with
    | .null => pure none
    | request => (TransactionRequest.ofGiven request).map some
  let label := (given.part "state").asText
  let state := TransactionState.all.find? fun state => state.label == label
  return {
    txHash := given.part "tx_hash", policy := policy.getD {}, state := state.getD .submitted
    request }

def describe (pending : PendingTransaction) : Value :=
  .dict [
    ("tx_hash", pending.txHash), ("state", .text pending.state.label),
    ("terminal", .bool pending.state.isTerminal), ("mined", .bool pending.isMined),
    ("block_number", .digits? pending.blockNumber),
    ("receipt", Value.ofOption (pending.receipt.map .dict)),
    ("revert_reason", .ofText? pending.revertReason),
    ("request", Value.ofOption (pending.request.map TransactionRequest.describe))]

end PendingTransaction

def Signature.describe (signature : Signature) : Dict := [
  ("r", .digits signature.r), ("s", .digits signature.s),
  ("recovery_id", .int signature.recoveryId)]

def Signer.ofGiven (given : Value) : Outcome Signer :=
  match (given.part "kind").asText with
  | "local" => (SecretKey.ofValue (given.untagged "key")).map keyed
  | "node" => (Address.ofValue (given.untagged "address")).map nodeManaged
  | _ => do
    let address ← Address.ofValue (given.untagged "address")
    let unavailable := match given.part "unavailable_errors" with
      | .list names => FailureClass.ofNames names
      | _ => unreachable
    return offline address unavailable

end ContractClient
