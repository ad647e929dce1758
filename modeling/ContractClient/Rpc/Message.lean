import ContractClient.Failure

/-!
# Messages to and from nodes

A request names a method and its parameters and carries a number; a response carries the number of
its request and either a result or an error object.
-/

namespace ContractClient

/-- A request to a node. -/
structure RpcRequest where
  id : Int
  method : String
  params : List Value
  deriving Inhabited

def RpcRequest.toValue (request : RpcRequest) : Value :=
  .dict [("jsonrpc", .text "2.0"), ("id", .int request.id), ("method", .text request.method),
    ("params", .list request.params)]

/-- A response of a node. -/
structure RpcResponse where
  id : Value := .null
  result : Value := .null
  /-- The error object, or null. -/
  error : Value := .null
  deriving Inhabited

namespace RpcResponse

def ofValue (payload : Value) : Outcome RpcResponse := do
  return {
    id := ← payload.lookup "id", result := ← payload.lookup "result"
    error := ← payload.lookup "error" }

def isError (response : RpcResponse) : Bool :=
  match response.error with
  | .null => false
  | _ => true

end RpcResponse

/-- The fault that an error object reports about a method. -/
def Fault.ofErrorObject (error : Value) (method : String := "") (params : Option Value := none) :
    Outcome Fault := do
  let message ← error.lookup "message" (.text "unknown RPC error")
  return .rpc (← message.displayed) .rpc method params (← error.lookup "code")
    (← error.lookup "data")

/-- The result of a response, or the failure that its error object reports. -/
def RpcResponse.unwrap (response : RpcResponse) (method : String := "")
    (params : Option Value := none) : Outcome Value := do
  if response.isError then Outcome.fault (← Fault.ofErrorObject response.error method params)
  else return response.result

end ContractClient
