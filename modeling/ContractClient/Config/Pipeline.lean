import ContractClient.Transaction.Policy

/-!
# Configuration of transactions

`PipelineConfig` holds what is the caller's decision for all transactions: the margin and the limit
of gas, fees for requests that name none, and how long to wait for confirmation.
-/

namespace ContractClient

/-- The caller's decisions for all transactions. -/
structure PipelineConfig where
  /-- The factor by which estimates of gas are increased. -/
  gasMargin : Binary64 := Binary64.ofRat (115 / 100)
  /-- The greatest amount of gas that an estimate may lead to. -/
  maxGas : Nat := 30000000
  fees : FeeDefaults := {}
  confirmation : ConfirmationPolicy := {}
  deriving Inhabited

namespace PipelineConfig

/-- Reads a factor that is not known to be below one. -/
def margin (value : Value) : Checked Binary64 :=
  (Schema.float value).require .greaterThanEqual fun number => !number.lt (Binary64.ofInt 1)

def read (entries : Dict) : Checked PipelineConfig :=
  mk <$> Schema.field entries "gas_margin" (Binary64.ofRat (115 / 100)) margin <*>
    Schema.field entries "max_gas" 30000000 (Schema.naturalFrom 21000) <*>
    Schema.field entries "fees" {} (Schema.model FeeDefaults.read) <*>
    Schema.field entries "confirmation" {} (Schema.model ConfirmationPolicy.read)

def toFields (config : PipelineConfig) : Dict := [
  ("gas_margin", .float config.gasMargin), ("max_gas", .int config.maxGas),
  ("fees", .dict config.fees.toFields), ("confirmation", .dict config.confirmation.toFields)]

end PipelineConfig

end ContractClient
