import ContractClient.Activity

/-!
# Transports

A transport is the way to a node: it executes one request, or several in one round trip.
-/

namespace ContractClient

/-- The way to a node. -/
structure Transport where
  send : (method : String) → (params : List Value) → Activity Value
  sendBatch : (requests : List RpcRequest) → Activity (List RpcResponse)

def Transport.direct : Transport where
  send method params := (Activity.perform (.call method params)).settle
  sendBatch requests := (Activity.perform (.batch requests)).settle

end ContractClient
