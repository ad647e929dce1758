import ContractClient.Abi.Contract
import ContractClient.Activity

/-!
# Loading interfaces

Loading an interface from a document notes the entries of unknown kinds, which are passed over.
-/

namespace ContractClient.ContractAbi

def logger : String := "ethcontract.abi.contract"

def noteUnknown (kinds : List String) : Activity Unit :=
  kinds.forM fun kind =>
    Activity.note .debug logger "Ignoring unknown ABI entry" [("kind", .text kind)]

def load (document : Value) : Activity ContractAbi := do
  let entries ← AbiEntry.ofDocument document
  noteUnknown (unknownKinds {} entries)
  ofEntries entries

end ContractClient.ContractAbi
