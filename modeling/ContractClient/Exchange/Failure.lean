import ContractClient.Exchange.Tagged
import ContractClient.Rpc.Message

/-!
# Failures as documents

`Failure.toFields` says in a document how a computation failed; `Fault.ofFields` and
`Fault.ofMaker` build faults from their parts, and `Failure.named` builds the failure that has a
name.
-/

namespace ContractClient

namespace Value

mutual

/-- A value as a plain document: numbers that are no integers are tagged. -/
def plain : Value → Value
  | float number => dict [("float", text number.toText)]
  | list items => list (plainAll items)
  | tuple items => list (plainAll items)
  | bytes octets => hex octets
  | dict entries => dict (plainEntries entries)
  | value => value

def plainAll : List Value → List Value
  | [] => []
  | item :: items => plain item :: plainAll items

def plainEntries : List (String × Value) → List (String × Value)
  | [] => []
  | (key, value) :: entries => (key, plain value) :: plainEntries entries

end

end Value

namespace Condition

/-- What the names of conditions that the HTTP library reports start with. -/
def httpSpace : String := "httpx."

/-- The name of a condition together with the library that reports it. -/
def fullName (condition : Condition) : String :=
  if condition == badSignature then "eth_keys." ++ condition.label
  else if condition.isA httpError || condition == httpInvalidUrl then
    httpSpace ++ condition.label
  else condition.label

/-- A name without the library in front of it. -/
def shortName (name : String) : String :=
  if httpSpace.toList.isPrefixOf name.toList then
    String.ofList (name.toList.drop httpSpace.length)
  else name

end Condition

def Issue.toValue (issue : Issue) : Value :=
  let steps := issue.path.map fun step => match step with
    | .field name => Value.text name
    | .index position => Value.int position
  .dict [("loc", .list steps), ("type", .text issue.kind.label)]

def Issue.listValue (issues : List Issue) : Value :=
  .list (issues.map Issue.toValue)

def Fault.toFields (fault : Fault) : Dict :=
  let fields : Dict := [
    ("error", .text fault.kind.label), ("code", .text fault.code),
    ("details", (Value.dict fault.details).plain)]
  let fields := fields.setSome "message" (fault.message.map .text)
  let fields := fields.setSome "tx_hash" fault.txHash.present?
  match fault.payload with
  | .issues issues => Dict.set fields "errors" (Issue.listValue issues)
  | _ => fields

namespace Failure

def toFields : Failure → Dict
  | fault reported => reported.toFields
  | invalidModel issues => [
    ("error", .text "pydantic.ValidationError"), ("errors", Issue.listValue issues)]
  | condition met _ => [("error", .text met.fullName)]

def named (name content : String) : Failure :=
  match FaultKind.ofLabel? name with
  | some .rpc => .fault (.rpc content)
  | some .rpcTransport => .fault (.rpcTransport content)
  | some .callReverted => .fault (.callReverted (some content))
  | some .abiParse => .fault (.abiParse content)
  | some .confirmationTimeout => .fault (.confirmationTimeout (.text content))
  | some .transactionReverted => .fault (.transactionReverted (.text content))
  | some kind => .fault (.make kind content)
  | none =>
    .condition ((Condition.ofLabel? (Condition.shortName name)).getD .anything) content

end Failure

def FailureClass.ofNames (names : List Value) : List FailureClass :=
  names.filterMap fun name => FailureClass.ofLabel? (Condition.shortName name.asText)

/-- The document of an outcome: its value, or its failure. -/
def Outcome.toFields (outcome : Outcome Value) : Dict :=
  match outcome with
  | .ok value => [("ok", value)]
  | .error failure => failure.toFields

namespace Fault

/-- The fault of a kind with a subject, which is its message unless the kind words the message
itself, and with further fields. -/
def ofFields (kind : FaultKind) (subject : Value) (fields : Dict) : Fault :=
  let fields := Value.dict fields
  let content (key : String) : String := (fields.part key).asText
  let given (key : String) : Option Value := (fields.part key).present?
  let details := (fields.part "details").entries
  let message := subject.asText
  match kind with
  | .abiParse => abiParse message (fields.part "reason").asText? details
  | .encode => encode message (content "abi_type") details
  | .decode => decode message (content "code") (content "abi_type") (given "offset") details
  | .rpc | .rpcTransport =>
    rpc message kind (content "method") (given "params") (fields.part "rpc_code")
      (fields.part "data") details
  | .batchDesync =>
    batchDesync message (fields.part "expected_ids").items? (fields.part "received_ids").items?
  | .signer | .signerUnavailable => signer message kind (content "code") (content "address") details
  | .callReverted => callReverted subject.asText? (fields.part "data").octets? details
  | .confirmationTimeout =>
    confirmationTimeout subject (given "timeout") (given "blocks") details
  | .transactionReverted =>
    transactionReverted subject (fields.part "reason").asText?
      ((given "receipt").map Value.entries)
  | _ => make kind message (content "code") (fields.part "tx_hash") details

/-- The fault of a kind that is made in a named way, from the parts that this way takes. -/
def ofMaker (maker : String) (kind : FaultKind) (arguments : List Value) (fields : Dict) :
    Outcome Fault :=
  let argument (position : Nat) : Value := arguments.getD position .null
  let fields := Value.dict fields
  match maker with
  | "out_of_bounds" =>
    .ok (outOfBounds (argument 0).asText (argument 1).asInt (argument 2).asInt (argument 3).asInt)
  | "missing_field" =>
    let address := if 1 < arguments.length then argument 1 else fields.part "address"
    .ok (missingField (argument 0).asText address.asText)
  | "from_response" => do
    let fault ← ofErrorObject (argument 0) (fields.part "method").asText
      (fields.part "params").present?
    return { fault with kind, code := kind.defaultCode }
  | _ => .ok (ofFields kind (argument 0) fields.entries)

/-- A fault with everything that programs may ask of it. -/
def describe (fault : Fault) (showsAll : Bool) : Value :=
  let fields : Dict := [
    ("dict", Tagged.encode (.dict fault.toDict)), ("str", .text fault.summary),
    ("bases", .list (fault.kind.lineage.map fun kind => .text kind.label))]
  let fields := if showsAll then Dict.set fields "repr" (.text fault.render) else fields
  match fault.kind, fault.payload with
  | .callReverted, .revert reason _ =>
    .dict (Dict.set fields "reason_available" (.bool reason.isSome))
  | _, _ => .dict fields

end Fault

end ContractClient
