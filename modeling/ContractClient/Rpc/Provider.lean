import ContractClient.Rpc.Transport

/-!
# Providers

A provider executes methods on behalf of the application, with a connection and numbers of its own.
A provider that takes no batches gets their requests one after the other.
-/

namespace ContractClient

/-- What a provider can do. -/
structure Provider where
  takesBatches : Bool := false
  canDisconnect : Bool := true
  deriving DecidableEq, Repr, Inhabited

namespace Provider

def logger : String := "ethcontract.transport.web3"

def failureOf (method : String) (params : Option Value) (failure : Failure) : Failure :=
  if failure.belongsTo (.condition .system) then
    .fault (.rpcTransport ("Provider failure: " ++ failure.summary) method params)
  else failure

/-- The error object that an error of a provider stands for. An error that is no object becomes the
message of one. -/
def errorOf : Value → Outcome Value
  | .null => .ok .null
  | .dict error => .ok (.dict error)
  | other => do return .dict [("message", .text (← other.displayed))]

/-- The response that a provider's reply stands for. -/
def responseOf (raw : Value) (method : String) (defaultId : Value := .null) :
    Outcome RpcResponse :=
  match raw with
  | .dict entries => do
    let member (key : String) : Value := Value.ofOption (Dict.get? entries key)
    let error ← errorOf (member "error")
    return { id := (Dict.get? entries "id").getD defaultId, result := member "result", error }
  | _ => Outcome.fault (.rpcTransport "Provider returned a non-object reply" method)

def request (method : String) (params : List Value) : Activity Value :=
  (Activity.perform (.provide method params)).settle.andThen fun
    | .ok raw => pure raw
    | .error failure => Activity.fail (failureOf method (some (.list params)) failure)

def send (method : String) (params : List Value) : Activity Value := do
  let raw ← request method params
  let response ← responseOf raw method
  response.unwrap method (some (.list params))

def sendEach (requests : List RpcRequest) : Activity (List RpcResponse) :=
  requests.mapM fun entry => do
    let raw ← request entry.method entry.params
    responseOf raw entry.method (.int entry.id)

def sendTogether (requests : List RpcRequest) : Activity (List RpcResponse) := do
  let question := Query.provideBatch (requests.map fun entry => (entry.method, entry.params))
  let raw ← (Activity.perform question).settle.andThen fun
    | .ok raw => pure raw
    | .error failure => Activity.fail (failureOf "batch" none failure)
  match raw with
  | .dict _ => return [← responseOf raw "batch"]
  | other =>
    let items ← other.elements
    items.mapM fun item => (responseOf item "batch" : Activity RpcResponse)

def sendBatch (provider : Provider) (requests : List RpcRequest) :
    Activity (List RpcResponse) := do
  if requests.isEmpty then return []
  else if provider.takesBatches then sendTogether requests
  else
    Activity.note .debug logger "Provider has no batch support, sending sequentially"
      [("size", .int requests.length)]
    sendEach requests

def transport (provider : Provider) : Transport where
  send := send
  sendBatch := provider.sendBatch

/-- Disconnects a provider, if it can be. A provider that does not support it has nothing to
release. -/
def close (provider : Provider) : Activity Unit :=
  if provider.canDisconnect then
    (Activity.perform .disconnect).settle.handle fun failure =>
      if failure.belongsTo (.condition .notImplemented) then pure () else Activity.fail failure
  else pure ()

end Provider

end ContractClient
