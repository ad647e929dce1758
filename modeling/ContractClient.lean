import ContractClient.Abi.Loading
import ContractClient.Abi.Topic
import ContractClient.Contract.Instance
import ContractClient.Json.Writer
import ContractClient.Log.Context
import ContractClient.Log.Settings
import ContractClient.Rpc.Http
import ContractClient.Rpc.Provider
import ContractClient.Version
import ContractClient.World
import ContractClient.Exchange.Access
import ContractClient.Exchange.Event
import ContractClient.Exchange.Interface
import ContractClient.Exchange.Transaction
import ContractClient.Log.Journal
import ContractClient.Log.Task
import ContractClient.Simulation.Script
import ContractClient.Simulation.Session
import ContractClient.Proofs.Abi.Acceptance
import ContractClient.Proofs.Abi.Corruption
import ContractClient.Proofs.Abi.Extent
import ContractClient.Proofs.Abi.Reencoding
import ContractClient.Proofs.Abi.RoundTrip
import ContractClient.Proofs.Abi.Signature
import ContractClient.Proofs.Batch.Provider
import ContractClient.Proofs.Contract.Agreement
import ContractClient.Proofs.Event.Emission
import ContractClient.Proofs.Event.Following
import ContractClient.Proofs.Transaction.Aftermath
import ContractClient.Proofs.Transaction.Confirmation
import ContractClient.Proofs.Transaction.Envelope
import ContractClient.Proofs.Signing.Agreement
import ContractClient.Proofs.Event.Selection
import ContractClient.Proofs.Contract.Result
import ContractClient.Proofs.Activity.Timely
import ContractClient.Proofs.Transaction.Deadline
import ContractClient.Proofs.Transaction.Expiry
import ContractClient.Proofs.Transaction.BlockBound
import ContractClient.Proofs.Transaction.Reason
import ContractClient.Proofs.Transaction.Build
import ContractClient.Proofs.Transaction.Broadcast
import ContractClient.Proofs.Contract.Payload
import ContractClient.Proofs.Contract.ErrorObject
import ContractClient.Proofs.Contract.RevertReport
import ContractClient.Proofs.Transaction.Gas
import ContractClient.Proofs.Rpc.Agreement
import ContractClient.Proofs.Batch.Rejection
import ContractClient.Proofs.Signing.Handover
import ContractClient.Proofs.Abi.InPlace
import ContractClient.Proofs.Event.Bounds
import ContractClient.Proofs.Event.Fields
import ContractClient.Proofs.Event.Width
import ContractClient.Proofs.Abi.Calldata
import ContractClient.Proofs.Abi.Lookup
import ContractClient.Proofs.Contract.Explanation
import ContractClient.Proofs.Contract.MethodTable
import ContractClient.Proofs.Abi.Order
import ContractClient.Proofs.Abi.Spaces
import ContractClient.Proofs.Abi.Loading
import ContractClient.Proofs.Transaction.Fees
import ContractClient.Proofs.Contract.ChosenPolicy
import ContractClient.Proofs.Retry.Backoff
import ContractClient.Proofs.Rpc.Posting
import ContractClient.Proofs.Abi.Inflation
import ContractClient.Proofs.Abi.Placement
import ContractClient.Proofs.Abi.Splitting
import ContractClient.Proofs.Abi.Verbatim
import ContractClient.Proofs.Wire.Address
import ContractClient.Proofs.Wire.Data
import ContractClient.Proofs.Log.Nesting
import ContractClient.Proofs.Wire.Quantity
