import ContractClient.Wire.Address
import ContractClient.Wire.Data
import ContractClient.Wire.Quantity

/-!
# Transaction requests

A request is the draft of a transaction. Fields that are not set yet are filled in before it is
signed. A request pays either by a single gas price or by a fee cap and a priority fee; it must not
name both.
-/

namespace ContractClient

/-- The draft of a transaction. -/
structure TransactionRequest where
  sender : Option Address := none
  /-- The recipient; none to create a contract. -/
  recipient : Option Address := none
  value : Option Nat := some 0
  data : Bytes := []
  gas : Option Nat := none
  gasPrice : Option Nat := none
  maxFeePerGas : Option Nat := none
  maxPriorityFeePerGas : Option Nat := none
  nonce : Option Nat := none
  chainId : Option Nat := none
  deriving DecidableEq, Repr, Inhabited

namespace TransactionRequest

/-- The address that a field gives, if it gives one. -/
def addressField (name : String) : Value → Outcome (Option Address)
  | .null => .ok none
  | value => (Address.ofValue value name).map some

/-- The number that a field gives, if it gives one. -/
def numberField (name : String) (value : Value) : Outcome (Option Nat) :=
  match value with
  | .null => .ok none
  | .int number => if number < 0 then refused else .ok (some number.toNat)
  | _ => refused
where
  /-- The failure of a field that is no number. -/
  refused : Outcome (Option Nat) :=
    Outcome.fault (.validation s!"{name} must be a non-negative int, got {value.render}")

def fieldNames : List String := [
  "from_address", "to", "value", "data", "gas", "gas_price", "max_fee_per_gas",
  "max_priority_fee_per_gas", "nonce", "chain_id"]

def ofFields (fields : Dict) : Outcome TransactionRequest := do
  let field (name : String) : Value := Value.ofOption (Dict.get? fields name)
  if fields.any fun entry => !fieldNames.contains entry.1 then Outcome.condition .wrongKind
  let sender ← addressField "from_address" (field "from_address")
  let recipient ← addressField "to" (field "to")
  let data ← Data.bytesOfValue ((Dict.get? fields "data").getD (.bytes []))
  let value ← numberField "value" ((Dict.get? fields "value").getD (.int 0))
  let gas ← numberField "gas" (field "gas")
  let gasPrice ← numberField "gas_price" (field "gas_price")
  let maxFeePerGas ← numberField "max_fee_per_gas" (field "max_fee_per_gas")
  let maxPriorityFeePerGas ←
    numberField "max_priority_fee_per_gas" (field "max_priority_fee_per_gas")
  let nonce ← numberField "nonce" (field "nonce")
  let chainId ← numberField "chain_id" (field "chain_id")
  return {
    sender, recipient, value, data, gas, gasPrice, maxFeePerGas, maxPriorityFeePerGas, nonce,
    chainId }

def toFields (request : TransactionRequest) : Dict := [
  ("from_address", Value.ofOption (request.sender.map Address.toValue)),
  ("to", Value.ofOption (request.recipient.map Address.toValue)),
  ("value", .ofNat? request.value), ("data", .bytes request.data),
  ("gas", .ofNat? request.gas), ("gas_price", .ofNat? request.gasPrice),
  ("max_fee_per_gas", .ofNat? request.maxFeePerGas),
  ("max_priority_fee_per_gas", .ofNat? request.maxPriorityFeePerGas),
  ("nonce", .ofNat? request.nonce), ("chain_id", .ofNat? request.chainId)]

def replace (request : TransactionRequest) (changes : Dict) : Outcome TransactionRequest :=
  ofFields (Dict.merge request.toFields changes)

def hasLegacyFee (request : TransactionRequest) : Bool :=
  request.gasPrice.isSome

def hasDynamicFee (request : TransactionRequest) : Bool :=
  request.maxFeePerGas.isSome || request.maxPriorityFeePerGas.isSome

/-- Whether a request pays by a fee cap and a priority fee. -/
def isDynamicFee (request : TransactionRequest) : Bool :=
  request.hasDynamicFee && !request.hasLegacyFee

/-- Refuses a request that pays in both ways. -/
def checkFeeModel (request : TransactionRequest) : Outcome Unit :=
  if request.hasLegacyFee && request.hasDynamicFee then
    Outcome.fault <| .validation
      "gas_price and max_fee_per_gas/max_priority_fee_per_gas are mutually exclusive"
  else .ok ()

def addressText (address : Option Address) : Option Value :=
  address.map Address.toValue

def quantityText (number : Option Nat) : Option Value :=
  number.map fun number => .text (Quantity.ofNat number)

/-- The value of a request, unless it is zero. -/
def transferred (request : TransactionRequest) : Option Nat :=
  request.value.filter (· != 0)

/-- The data of a request, unless there is none. -/
def payload (request : TransactionRequest) : Option Value :=
  if request.data.isEmpty then none else some (.text (Data.ofBytes request.data))

/-- A request as nodes take it: the fields that are set. -/
def toRpc (request : TransactionRequest) : Dict :=
  Dict.setSome [] "from" (addressText request.sender)
    |>.setSome "to" (addressText request.recipient)
    |>.setSome "value" (quantityText request.transferred)
    |>.setSome "data" request.payload
    |>.setSome "gas" (quantityText request.gas)
    |>.setSome "gasPrice" (quantityText request.gasPrice)
    |>.setSome "maxFeePerGas" (quantityText request.maxFeePerGas)
    |>.setSome "maxPriorityFeePerGas" (quantityText request.maxPriorityFeePerGas)
    |>.setSome "nonce" (quantityText request.nonce)
    |>.setSome "chainId" (quantityText request.chainId)

end TransactionRequest

end ContractClient
