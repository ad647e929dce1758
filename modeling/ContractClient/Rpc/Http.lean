import ContractClient.Config.Connection
import ContractClient.Json.Reader
import ContractClient.Rpc.Transport

/-!
# Nodes over HTTP

Requests are posted to a node and answered by JSON. What keeps the node from answering at all is
worth another attempt; an answer that reports an error is not.
-/

namespace ContractClient.Http

def logger : String := "ethcontract.transport.http"

def transient : List FailureClass := [.fault .rpcTransport]

/-- Whether a status says that another attempt may succeed. -/
def isTransientStatus (status : Int) : Bool :=
  500 ≤ status || status == 429

/-- The value that a reply carries, or what is wrong with the reply. -/
def valueOfReply (method : String) (reply : HttpReply) : Outcome Value :=
  let message := s!"HTTP {reply.status} from node"
  let details := [("status_code", Value.int reply.status)]
  if isTransientStatus reply.status then
    Outcome.fault (.rpcTransport message method none details)
  else if reply.status ≠ 200 then
    Outcome.fault (.rpc message .rpc method none .null .null details)
  else match Json.readBytes? reply.body with
    | some value => .ok value
    | none => Outcome.fault (.rpc "Node replied with invalid JSON" .rpc method)

/-- The failure of a post that was not replied to. -/
def failureOfPost (method : String) (failure : Failure) : Failure :=
  if failure.belongsTo (.condition .httpTransport) then
    .fault <| .rpcTransport s!"Transport failure: {failure.label}: {failure.summary}" method
  else failure

/-- Posts a body once. -/
def postOnce (body : Value) (method : String) : Activity Value :=
  (Activity.perform (.post body)).settle.andThen fun
    | .ok reply => Activity.ofOutcome (valueOfReply method reply)
    | .error failure => Activity.fail (failureOfPost method failure)

/-- Posts a body until it is answered, as often as the configuration allows. -/
def post (config : TransportConfig) (body : Value) (method : String) : Activity Value :=
  retry (config.retryConfig transient) (postOnce body method) method

def send (config : TransportConfig) (request : RpcRequest) : Activity Value := do
  let payload ← post config request.toValue request.method
  match payload with
  | .dict _ =>
    let response ← RpcResponse.ofValue payload
    if response.isError then
      let code ← response.error.lookup "code"
      Activity.note .debug logger "RPC returned error"
        [("method", .text request.method), ("rpc_code", code)]
    response.unwrap request.method (some (.list request.params))
  | _ =>
    Activity.fault <| .rpcTransport "Expected a JSON-RPC object in reply" request.method
      (some (.list request.params))

/-- Executes several requests in one round trip. A node may refuse all of them by one error. -/
def sendBatch (config : TransportConfig) (requests : List RpcRequest) :
    Activity (List RpcResponse) := do
  if requests.isEmpty then return []
  match ← post config (.list (requests.map RpcRequest.toValue)) "batch" with
  | .dict entries => match Dict.get? entries "error" with
    | some error => Activity.fault (← Fault.ofErrorObject error "batch")
    | none => unexpected
  | .list items => items.mapM fun item => (RpcResponse.ofValue item : Activity RpcResponse)
  | _ => unexpected
where
  /-- The failure of an answer that is no list. -/
  unexpected : Activity (List RpcResponse) :=
    Activity.fault (.rpcTransport "Expected a JSON-RPC array in reply" "batch")

/-- A client that numbers its requests. -/
structure Client where
  config : TransportConfig
  /-- The number of the next request. -/
  nextId : Int := 1
  /-- Whether the connection is the client's own. A borrowed one stays open. -/
  ownsConnection : Bool := true
  deriving Inhabited

/-- Takes the number of the next request. -/
def Client.takeId (client : Client) : Client × Int :=
  ({ client with nextId := client.nextId + 1 }, client.nextId)

/-- The next request of a client, and what executes it. -/
def Client.send (client : Client) (method : String) (params : List Value) :
    Client × Activity Value :=
  let (client, id) := client.takeId
  (client, Http.send client.config { id, method, params })

end ContractClient.Http
