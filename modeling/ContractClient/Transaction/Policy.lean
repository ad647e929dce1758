import ContractClient.Number.Numeral
import ContractClient.Schema
import ContractClient.Transaction.Request

/-!
# Policies for transactions

`FeeDefaults` holds fees for requests that name none, `ConfirmationPolicy` says how long and how
deep to wait for a transaction.
-/

namespace ContractClient

/-- Fees for requests that name none. -/
structure FeeDefaults where
  gasPrice : Option Nat := none
  maxFeePerGas : Option Nat := none
  maxPriorityFeePerGas : Option Nat := none
  deriving DecidableEq, Repr, Inhabited

namespace FeeDefaults

/-- Whether fees of only one kind are given. -/
def hasSingleModel (fees : FeeDefaults) : Bool :=
  fees.gasPrice.isNone || (fees.maxFeePerGas.isNone && fees.maxPriorityFeePerGas.isNone)

def read (entries : Dict) : Checked FeeDefaults :=
  let fee (name : String) : Checked (Option Nat) :=
    Schema.field entries name none (Schema.optional (Schema.naturalFrom 0))
  (mk <$> fee "gas_price" <*> fee "max_fee_per_gas" <*> fee "max_priority_fee_per_gas").require
    .valueError hasSingleModel

def toFields (fees : FeeDefaults) : Dict := [
  ("gas_price", .ofNat? fees.gasPrice), ("max_fee_per_gas", .ofNat? fees.maxFeePerGas),
  ("max_priority_fee_per_gas", .ofNat? fees.maxPriorityFeePerGas)]

/-- Fills in the fees that a request lacks. A request that pays in one of the two ways already gets
only the other fee of the same way. -/
def apply (fees : FeeDefaults) (request : TransactionRequest) : Outcome TransactionRequest := do
  request.checkFeeModel
  if request.hasLegacyFee then return request
  else if request.hasDynamicFee then
    return { request with
      maxFeePerGas := request.maxFeePerGas <|> fees.maxFeePerGas
      maxPriorityFeePerGas := request.maxPriorityFeePerGas <|> fees.maxPriorityFeePerGas }
  else
    return { request with
      gasPrice := fees.gasPrice
      maxFeePerGas := fees.maxFeePerGas
      maxPriorityFeePerGas := fees.maxPriorityFeePerGas }

end FeeDefaults

/-- The seconds between two polls where nobody says otherwise. -/
def defaultPollInterval : Binary64 := Binary64.ofInt 7

/-- How long and how deep to wait for a transaction. A transaction in a block is confirmed once the
head of the chain is at least `requiredConfirmations` blocks above it. The fields of a policy that
was read are in their bounds; a copy that was changed may hold other numbers, and any value as the
number of blocks. -/
structure ConfirmationPolicy where
  requiredConfirmations : Value := .int 1
  /-- The seconds between two polls. -/
  pollInterval : Binary64 := defaultPollInterval
  /-- The seconds after which the wait ends; none to wait forever. -/
  timeout : Option Binary64 := some (Binary64.ofInt 300)
  /-- The number of blocks without a receipt after which the wait ends. -/
  timeoutBlocks : Option Int := none
  deriving Inhabited

namespace ConfirmationPolicy

/-- Whether a number is not known to be zero or less. -/
def isPositive (number : Binary64) : Bool :=
  !(number.lt Binary64.zero || number.same Binary64.zero)

def positive (value : Value) : Checked Binary64 :=
  (Schema.float value).require .greaterThan isPositive

def read (entries : Dict) : Checked ConfirmationPolicy :=
  (mk ∘ .int) <$> Schema.field entries "required_confirmations" 1 (Schema.integerFrom 0) <*>
    Schema.field entries "poll_interval" defaultPollInterval positive <*>
    Schema.field entries "timeout" (some (Binary64.ofInt 300)) (Schema.optional positive) <*>
    Schema.field entries "timeout_blocks" none (Schema.optional (Schema.integerFrom 1))

def toFields (policy : ConfirmationPolicy) : Dict := [
  ("required_confirmations", policy.requiredConfirmations),
  ("poll_interval", .float policy.pollInterval),
  ("timeout", Value.ofOption (policy.timeout.map .float)),
  ("timeout_blocks", Value.ofOption (policy.timeoutBlocks.map .int))]

/-- Whether a head is so many blocks above a block as the policy demands. A policy that demands no
number has no answer. -/
def isReached (policy : ConfirmationPolicy) (block head : Int) : Outcome Bool := do
  let least ← (Numeral.int block).add (← Numeral.ofValue policy.requiredConfirmations)
  return least.le (.int head)

end ConfirmationPolicy

end ContractClient
