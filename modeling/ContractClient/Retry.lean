import ContractClient.Activity
import ContractClient.Number.Numeral

/-!
# Retrying

Only what fails for a passing reason is tried again: `retry` repeats an attempt that fails with one
of the failures named by the configuration, up to a number of attempts, and waits before each
repetition. The waits grow by a factor, up to a limit. With jitter a share of each wait is drawn.
-/

namespace ContractClient

/-- How often and after which waits to try again. -/
structure RetryConfig where
  maxAttempts : Int := 3
  /-- The first wait, in milliseconds. -/
  baseDelay : Numeral := .int 1000
  /-- The longest wait, in milliseconds. -/
  maxDelay : Numeral := .int 30000
  jitter : Bool := true
  exponentialBase : Numeral := .float (Binary64.ofInt 2)
  /-- What is worth another attempt. -/
  retryable : List FailureClass := [.condition .anything]
  deriving Inhabited

namespace RetryConfig

def never : RetryConfig :=
  { maxAttempts := 1, baseDelay := .int 0, jitter := false }

def ofFields (fields : Dict) (retryable : List FailureClass := [.condition .anything]) :
    Outcome RetryConfig := do
  let field (name : String) (default : Value) : Value := (Dict.get? fields name).getD default
  let maxAttempts ← match field "max_attempts" (.int 3) with
    | .int count => pure count
    | .bool flag => pure (if flag then 1 else 0)
    | _ => Outcome.condition .wrongKind
  if maxAttempts < 1 then .error (.condition .badValue "max_attempts must be at least 1")
  let baseDelay ← Numeral.ofValue (field "base_delay_ms" (.int 1000))
  let maxDelay ← Numeral.ofValue (field "max_delay_ms" (.int 30000))
  if baseDelay.lt (.int 0) || maxDelay.lt (.int 0) then
    .error (.condition .badValue "delays must be non-negative")
  let exponentialBase ←
    Numeral.ofValue (field "exponential_base" (.float (Binary64.ofInt 2)))
  let jitter := (field "jitter" (.bool true)).isTruthy
  return { maxAttempts, baseDelay, maxDelay, jitter, exponentialBase, retryable }

def isRetryable (config : RetryConfig) (failure : Failure) : Bool :=
  config.retryable.any failure.belongsTo

/-- The milliseconds to wait after an attempt, without jitter; attempts count from zero. -/
def backoff (config : RetryConfig) (attempt : Nat) : Outcome Numeral := do
  let grown ← config.baseDelay.mul (← config.exponentialBase.pow attempt)
  return grown.min config.maxDelay

/-- The seconds to wait after an attempt. With jitter only a share of the wait counts. -/
def calculateDelay (config : RetryConfig) (attempt : Nat) (share : Binary64 := Binary64.zero) :
    Outcome Binary64 := do
  let delay ← config.backoff attempt
  let delay ← if config.jitter then delay.mul (.float share) else pure delay
  delay.divNat 1000

end RetryConfig

/-- The exact number of seconds that a floating point number gives. -/
def secondsOf (number : Binary64) : Rat :=
  number.toRat?.getD 0

/-- Tries up to `remaining` times; `attempt` attempts were made before. -/
def retryFrom {α : Type} (config : RetryConfig) (operation : String) (action : Activity α) :
    (remaining attempt : Nat) → Activity α
  | 0, _ => Activity.ofOutcome (Outcome.condition .runtime)
  | 1, _ => action
  | remaining + 1, attempt => action.handle fun failure => do
    if !config.isRetryable failure then Activity.fail failure
    else
      let delay ← config.calculateDelay attempt
      Activity.note .warning "ethcontract.utils.retry" "Retrying after transient failure" [
        ("operation", .text operation), ("attempt", .int (attempt + 1)),
        ("max_attempts", .int config.maxAttempts),
        ("delay_s", .float (Numeral.roundPlaces delay 3)), ("error", .text failure.summary)]
      Activity.sleep (secondsOf delay)
      retryFrom config operation action remaining (attempt + 1)

/-- Tries an action until it succeeds, fails for good, or was tried often enough. -/
def retry {α : Type} (config : RetryConfig) (action : Activity α)
    (operation : String := "operation") : Activity α :=
  retryFrom config operation action config.maxAttempts.toNat 0

end ContractClient
