import ContractClient.Config.Pipeline
import ContractClient.Contract.Call
import ContractClient.Number.Numeral
import ContractClient.Retry
import ContractClient.Signing.Signer

/-!
# The way of a transaction

A pipeline builds a transaction from a request, signs it, hands it to a node and waits until it is
confirmed. Each stage can be used on its own; `Pipeline.send` goes all the way. No stage is repeated
when it fails.

A wait polls for the receipt. As long as there is none the transaction counts as submitted, also
after a block with it has left the chain. With a receipt it counts as mined; it is confirmed once
enough blocks follow. A receipt of a failed transaction ends the wait, after an attempt to learn the
reason: the transaction is run again as a call at its block. The wait expires at its deadline, or
when too many blocks have passed without a receipt; the transaction may still be mined then.
-/

namespace ContractClient

/-- What a pipeline needs to send transactions. -/
structure Pipeline where
  transport : Transport
  signer : Signer
  config : PipelineConfig := {}
  decoder : RevertDecoder := .standard

/-- When a wait expires. -/
structure WaitBound where
  /-- The seconds after which it expires, if there is a limit. -/
  timeout : Option Binary64
  /-- The moment at which it expires; an infinite number of seconds never passes. -/
  deadline : Option Rat
  deriving Inhabited

def WaitBound.start (timeout : Option Binary64) (now : Rat) : WaitBound :=
  { timeout, deadline := do return now + (← (← timeout).toRat?) }

namespace Pipeline

def logger : String := "ethcontract.contract.transactions"

/-- The gas for an estimate: the estimate times the margin, down to a whole number, but not more
than the limit. The margin is a floating point number, and the estimate is rounded to one first. -/
def gasLimit (config : PipelineConfig) (estimate : Int) : Outcome Int := do
  let scaled := (← Numeral.roundInt estimate).mul config.gasMargin
  match scaled with
  | .notANumber => Outcome.condition .badValue
  | .infinite _ => Outcome.condition .overflow
  | scaled => return min (scaled.truncate?.getD 0) config.maxGas

/-- What a transaction does, as the parameter of a call: its sender, its recipient, its value and
its data. -/
def callOfRequest (request : TransactionRequest) : Dict :=
  Dict.setSome [("from", Value.ofOption (TransactionRequest.addressText request.sender))] "to"
      (TransactionRequest.addressText request.recipient)
    |>.setSome "value" (TransactionRequest.quantityText request.transferred)
    |>.setSome "data" request.payload

def estimateGas (pipeline : Pipeline) (request : TransactionRequest) : Activity Int := do
  let reply ← pipeline.transport.send "eth_estimateGas" [.dict (callOfRequest request)]
  gasLimit pipeline.config (← Quantity.toInt reply)

/-- Sets the nonce of a request that has none. -/
def fillNonce (pipeline : Pipeline) (request : TransactionRequest) :
    Activity TransactionRequest :=
  match request.nonce with
  | some _ => pure request
  | none => do
    let sender := Value.ofOption (TransactionRequest.addressText request.sender)
    let count ← pipeline.transport.send "eth_getTransactionCount" [sender, .text "pending"]
    request.replace [("nonce", .int (← Quantity.toInt count))]

/-- Sets the gas of a request that has none. -/
def fillGas (pipeline : Pipeline) (request : TransactionRequest) : Activity TransactionRequest :=
  match request.gas with
  | some _ => pure request
  | none => do request.replace [("gas", .int (← pipeline.estimateGas request))]

/-- Sets the chain id of a request that has none. -/
def fillChainId (pipeline : Pipeline) (request : TransactionRequest) :
    Activity TransactionRequest :=
  match request.chainId with
  | some _ => pure request
  | none => do
    let chainId ← pipeline.transport.send "eth_chainId" []
    request.replace [("chain_id", .int (← Quantity.toInt chainId))]

/-- Completes a request. Fees come from the configuration and never from the node. -/
def build (pipeline : Pipeline) (request : TransactionRequest) : Activity TransactionRequest := do
  request.checkFeeModel
  let request := { request with sender := request.sender <|> some pipeline.signer.address }
  let request ← pipeline.fillNonce request
  let request ← pipeline.fillGas request
  let request ← pipeline.fillChainId request
  let request ← pipeline.config.fees.apply request
  Activity.note .debug logger "Transaction built" [
    ("from", Value.ofOption (TransactionRequest.addressText request.sender)),
    ("to", Value.ofOption (TransactionRequest.addressText request.recipient)),
    ("nonce", .ofNat? request.nonce), ("gas", .ofNat? request.gas),
    ("chain_id", .ofNat? request.chainId)]
  return request

def sign (pipeline : Pipeline) (request : TransactionRequest) : Activity Bytes := do
  let raw ← pipeline.signer.signTransaction pipeline.transport request
  Activity.note .debug logger "Transaction signed"
    [("from", pipeline.signer.address.toValue), ("nonce", .ofNat? request.nonce)]
  return raw

def submit (pipeline : Pipeline) (raw : Bytes) (policy : Option ConfirmationPolicy := none)
    (request : Option TransactionRequest := none) : Activity PendingTransaction := do
  let txHash ← pipeline.transport.send "eth_sendRawTransaction" [.text (Data.ofBytes raw)]
  Activity.note .info logger "Transaction submitted" [("tx_hash", txHash)]
  return {
    txHash, policy := policy.getD pipeline.config.confirmation, state := .submitted, request }

def headNumber (pipeline : Pipeline) : Activity Int := do
  Quantity.toInt (← pipeline.transport.send "eth_blockNumber" [])

def timeOut {α : Type} (pending : PendingTransaction) (timeout blocks : Option Value := none) :
    Activity α := do
  Activity.publish { pending with state := .timedOut }
  Activity.note .warning logger "Confirmation wait expired"
    [("timeout", Value.ofOption timeout), ("blocks", Value.ofOption blocks)]
  Activity.fault (.confirmationTimeout pending.txHash timeout blocks)

/-- One step of a wait. A step that runs into the deadline ends the wait. -/
def bounded {α : Type} (pending : PendingTransaction) (bound : WaitBound) (step : Activity α) :
    Activity α :=
  (step.bounded bound.deadline).handle fun failure =>
    match failure, bound.timeout with
    | .condition .timeout _, some timeout => timeOut pending (some (.float timeout))
    | failure, _ => Activity.fail failure

/-- The call that runs a transaction again: from its request, or from what the node knows of it. -/
def replayCall (pipeline : Pipeline) (pending : PendingTransaction) : Activity Dict := do
  match pending.request with
  | some request =>
    return (callOfRequest request).setSome "gas" (TransactionRequest.quantityText request.gas)
  | none =>
    let found ← pipeline.transport.send "eth_getTransactionByHash" [pending.txHash]
    if !found.isTruthy then
      Activity.fault <|
        .rpc "Transaction not found for replay" .rpc "eth_getTransactionByHash"
    let sender ← found.member "from"
    let input ← found.lookup "input" (.text "0x")
    let member (key : String) : Outcome (Option Value) := return Fault.present? (← found.lookup key)
    return Dict.setSome [("from", sender), ("data", input)] "to" (← member "to")
      |>.setSome "value" (← member "value")
      |>.setSome "gas" (← member "gas")

/-- Runs a transaction again at a block. -/
def replay (pipeline : Pipeline) (pending : PendingTransaction) (block : Int) :
    Activity Unit := do
  let call ← pipeline.replayCall pending
  let blockText ← Quantity.ofValue (.int block)
  discard (pipeline.transport.send "eth_call" [.dict call, .text blockText])

/-- The reason for which a transaction failed at a block, if it fails in the same way again. -/
def replayReason (pipeline : Pipeline) (pending : PendingTransaction) (block : Int) :
    Activity (Option String) :=
  (pipeline.replay pending block).andThen fun
    | .ok () => pure none
    | .error (.fault fault) => do
      if fault.kind.isA .rpc && fault.isRevert then
        return (← fault.toRevert pipeline.decoder).reason?
      else
        Activity.note .debug logger "Revert replay failed" [("error", .text fault.summary)]
        return none
    | .error failure => Activity.fail failure

def revert {α : Type} (pipeline : Pipeline) (pending : PendingTransaction) (block : Int)
    (bound : WaitBound) : Activity α := do
  let pending := { pending with state := .reverted }
  Activity.publish pending
  let reason ← ((pipeline.replayReason pending block).bounded bound.deadline).handle fun failure =>
    match failure with
    | .condition .timeout _ => do
      Activity.note .debug logger "Revert replay did not finish before the deadline"
      return none
    | failure => Activity.fail failure
  Activity.publish { pending with revertReason := reason }
  Activity.note .warning logger "Transaction reverted"
    [("block_number", .int block), ("reason", .ofText? reason)]
  Activity.fault (.transactionReverted pending.txHash reason pending.receipt)

/-- The transaction after a poll without a receipt. -/
def withoutReceipt (pending : PendingTransaction) : Activity PendingTransaction := do
  if pending.state = .mined then
    Activity.note .warning logger "Receipt disappeared, transaction back in mempool"
      [("block_number", Value.ofOption (pending.blockNumber.map .int))]
  Activity.publish pending.unmined
  return pending.unmined

/-- The number of a head, and the first head that was seen without a receipt. A wait for a number of
blocks ends when that many have passed since. -/
def checkBlocks (pipeline : Pipeline) (pending : PendingTransaction) (bound : WaitBound)
    (firstHead : Option Int) : Activity (Option Int) :=
  match pending.policy.timeoutBlocks with
  | none => pure firstHead
  | some blocks => do
    let head ← bounded pending bound pipeline.headNumber
    match firstHead with
    | none => return some head
    | some first =>
      if blocks ≤ head - first then timeOut pending none (some (.int blocks))
      else return some first

/-- Notes that a transaction is in a block, unless it was known to be in the same one. -/
def noteMined (pending : PendingTransaction) (block : Int) : Activity Unit :=
  if pending.state ≠ .mined || pending.blockNumber ≠ some block then
    Activity.note .info logger "Transaction mined" [("block_number", .int block)]
  else pure ()

def withReceipt (pipeline : Pipeline) (pending : PendingTransaction) (receipt : Value)
    (bound : WaitBound) : Activity (PendingTransaction × Int) := do
  let block ← Quantity.toInt (← receipt.member "blockNumber")
  noteMined pending block
  let pending := pending.minedAt block receipt.entries
  Activity.publish pending
  let status ← Quantity.toInt (← receipt.lookup "status" (.text "0x1"))
  if status = 0 then pipeline.revert pending block bound
  else return (pending, block)

/-- The seconds until the next poll when so many remain before the deadline. -/
def pauseWithin (interval : Binary64) (remaining : Rat) : Rat :=
  match interval with
  | .infinite false => remaining
  | interval => min (secondsOf interval) remaining

/-- Waits until the next poll. -/
def pause (pending : PendingTransaction) (bound : WaitBound) : Activity Unit := do
  match bound.deadline with
  | none => Activity.sleep (secondsOf pending.policy.pollInterval)
  | some deadline =>
    let remaining := deadline - (← Activity.now)
    if remaining ≤ 0 then timeOut pending (bound.timeout.map .float)
    else Activity.sleep (pauseWithin pending.policy.pollInterval remaining)

/-- What a poll shows: the transaction as it is known now, and, unless it is confirmed, the first
head that was seen without a receipt. -/
inductive Poll where
  | confirmed (pending : PendingTransaction)
  | unconfirmed (pending : PendingTransaction) (firstHead : Option Int)

/-- The rest of a poll without a receipt. -/
def pollWithoutReceipt (pipeline : Pipeline) (bound : WaitBound) (pending : PendingTransaction)
    (firstHead : Option Int) : Activity Poll := do
  let pending ← withoutReceipt pending
  let firstHead ← pipeline.checkBlocks pending bound firstHead
  return .unconfirmed pending firstHead

def pollWithReceipt (pipeline : Pipeline) (bound : WaitBound) (pending : PendingTransaction)
    (receipt : Value) (firstHead : Option Int) : Activity Poll := do
  let (pending, block) ← pipeline.withReceipt pending receipt bound
  let head ← bounded pending bound pipeline.headNumber
  if ← pending.policy.isReached block head then
    let pending := { pending with state := .confirmed }
    Activity.publish pending
    Activity.note .info logger "Transaction confirmed"
      [("block_number", .int block), ("head", .int head)]
    return .confirmed pending
  else
    return .unconfirmed pending firstHead

/-- Asks once whether a transaction is confirmed. -/
def poll (pipeline : Pipeline) (bound : WaitBound) (pending : PendingTransaction)
    (firstHead : Option Int) : Activity Poll := do
  let receipt ← bounded pending bound <|
    pipeline.transport.send "eth_getTransactionReceipt" [pending.txHash]
  match receipt with
  | .null => pipeline.pollWithoutReceipt bound pending firstHead
  | receipt => pipeline.pollWithReceipt bound pending receipt firstHead

def watch (pipeline : Pipeline) (bound : WaitBound) :
    (rounds : Nat) → PendingTransaction → (firstHead : Option Int) → Activity PendingTransaction
  | 0, _, _ => Activity.suspended
  | rounds + 1, pending, firstHead => do
    match ← pipeline.poll bound pending firstHead with
    | .confirmed pending => return pending
    | .unconfirmed pending firstHead =>
      pause pending bound
      watch pipeline bound rounds pending firstHead

def roundLimit : Nat := 1000000

/-- Waits until a transaction is confirmed. What it notes names the transaction. -/
def wait (pipeline : Pipeline) (pending : PendingTransaction) (rounds : Nat := roundLimit) :
    Activity PendingTransaction :=
  let wait : Activity PendingTransaction := do
    let bound := WaitBound.start pending.policy.timeout (← Activity.now)
    pipeline.watch bound rounds pending none
  wait.within [("tx_hash", pending.txHash)]

/-- The name of the task that waits for a transaction. -/
def waitName (pending : PendingTransaction) : Outcome String :=
  match pending.txHash with
  | .text _ => .ok ("wait-" ++ Fault.shortHash pending.txHash)
  | .list _ => .ok ("wait-" ++ Fault.shortHash pending.txHash)
  | .dict _ => Outcome.condition .missingKey
  | _ => Outcome.condition .wrongKind

/-- A wait as a task of its own, with the name of the task. -/
def spawnWait (pipeline : Pipeline) (pending : PendingTransaction) (rounds : Nat := roundLimit) :
    Outcome (String × Activity PendingTransaction) := do
  return (← waitName pending, pipeline.wait pending rounds)

/-- Builds, signs and submits a transaction and waits until it is confirmed. -/
def send (pipeline : Pipeline) (request : TransactionRequest)
    (policy : Option ConfirmationPolicy := none) (rounds : Nat := roundLimit) :
    Activity PendingTransaction := do
  let built ← pipeline.build request
  let raw ← pipeline.sign built
  let pending ← pipeline.submit raw policy (some built)
  pipeline.wait pending rounds

end Pipeline

end ContractClient
