import ContractClient.Config.EnvironmentFile
import ContractClient.Retry
import ContractClient.Schema

/-!
# Configuration of a connection

`TransportConfig` says how to reach a node over HTTP. It is read from its fields, or from the
environment, which a file may complete.
-/

namespace ContractClient

/-- How to reach a node. -/
structure TransportConfig where
  url : String
  /-- The milliseconds after which a request is given up. -/
  timeout : Nat := 30000
  headers : List (String × String) := []
  maxAttempts : Nat := 3
  /-- The wait before the second attempt, in milliseconds. -/
  retryBaseDelay : Nat := 500
  deriving Inhabited

namespace TransportConfig

def read (entries : Dict) : Checked TransportConfig :=
  mk <$> Schema.required entries "rpc_url" Schema.text <*>
    Schema.field entries "timeout_ms" 30000 (Schema.naturalFrom 100) <*>
    Schema.field entries "headers" [] Schema.textMap <*>
    Schema.field entries "max_attempts" 3 (Schema.naturalFrom 1) <*>
    Schema.field entries "retry_base_delay_ms" 500 (Schema.naturalFrom 0)

def toFields (config : TransportConfig) : Dict := [
  ("rpc_url", .text config.url), ("timeout_ms", .int config.timeout),
  ("headers", .dict (config.headers.map fun (name, value) => (name, .text value))),
  ("max_attempts", .int config.maxAttempts),
  ("retry_base_delay_ms", .int config.retryBaseDelay)]

/-- How often to try again, and after which failures. -/
def retryConfig (config : TransportConfig) (retryable : List FailureClass) : RetryConfig :=
  { maxAttempts := config.maxAttempts, baseDelay := .int config.retryBaseDelay, retryable }

def urlVariable : String := "ETHCONTRACT_RPC_URL"

/-- The variables that hold numbers, with the fields that they set. -/
def numberVariables : List (String × String) := [
  ("ETHCONTRACT_RPC_TIMEOUT_MS", "timeout_ms"),
  ("ETHCONTRACT_RPC_MAX_ATTEMPTS", "max_attempts")]

/-- The field that a variable sets, if the variable is bound and not empty. -/
def numberField (environment : EnvironmentFile.Environment) (variableName fieldName : String) :
    Outcome Dict :=
  match (environment.get? variableName).filter (! ·.isEmpty) with
  | none => .ok []
  | some text => match Text.integer? text.toList with
    | some number => .ok [(fieldName, .int number)]
    | none =>
      Outcome.fault (.validation s!"{variableName} must be an integer, got {Text.quote text}")

def ofEnvironment (environment : EnvironmentFile.Environment) : Outcome TransportConfig := do
  match (environment.get? urlVariable).filter (! ·.isEmpty) with
  | none => Outcome.fault (.validation (urlVariable ++ " is not set"))
  | some url =>
    let numbers ← numberVariables.mapM fun (variableName, fieldName) =>
      numberField environment variableName fieldName
    (read (("rpc_url", .text url) :: numbers.flatten)).toOutcome

end TransportConfig

end ContractClient
