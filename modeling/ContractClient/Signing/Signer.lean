import ContractClient.Rpc.Transport
import ContractClient.Signing.Account

/-!
# Signers

A signer signs the transactions of one account. It holds the secret key itself, or leaves it to the
node, or hands digests to an agent outside. No signer fills in what a request lacks: a request with
both ways to pay, a missing field, or another sender is refused, in this order.
-/

namespace ContractClient

/-- Who signs for an account. -/
inductive Signer where
  /-- Signs with a secret key. -/
  | keyed (key : SecretKey)
  /-- Lets the node sign with an account that it manages. -/
  | nodeManaged (address : Address)
  /-- Lets an agent sign digests. Some failures mean that the agent cannot be reached. -/
  | offline (address : Address) (unavailable : List FailureClass)
  deriving Inhabited

namespace Signer

def logger : String := "ethcontract.signing.signers"

/-- The failures of an agent that mean that it cannot be reached where nobody says otherwise. -/
def unreachable : List FailureClass :=
  [.condition .connection, .condition .timeout, .condition .system, .condition .httpTransport]

def address : Signer → Address
  | keyed key => key.address
  | nodeManaged address => address
  | offline address _ => address

def render (signer : Signer) : String :=
  let kind := match signer with
    | keyed _ => "LocalSigner"
    | nodeManaged _ => "NodeManagedSigner"
    | offline _ _ => "OfflineSigner"
  kind ++ "(address=" ++ Text.quote signer.address.text ++ ")"

def close : Signer → Signer
  | keyed key => keyed key.close
  | signer => signer

/-- The request with the account of the signer as its sender, if it is ready to be signed. -/
def checkSender (signer : Signer) (request : TransactionRequest) :
    Outcome TransactionRequest := do
  request.checkSignable signer.address.text
  match request.sender with
  | none => return { request with sender := some signer.address }
  | some sender =>
    if sender ≠ signer.address then
      Outcome.fault <| .signer
        s!"Request is from {sender.text}, signer is {signer.address.text}" .signer ""
        signer.address.text
    return request

/-- The signed transaction in the reply of a node: a text, or an object that holds it. -/
def rawOfReply (reply : Value) : Outcome Bytes :=
  let raw := match reply with
    | .dict entries => Value.ofOption (Dict.get? entries "raw")
    | other => other
  match raw with
  | .text _ | .brokenText _ => match Data.toBytes raw with
    | .ok octets => .ok octets
    | .error _ => Outcome.fault (.signer "Node returned malformed signed transaction")
  | _ => Outcome.fault (.signer "Node returned no signed transaction")

/-- The parts of a signature in the reply of an agent. -/
def partsOfReply : Value → Option (Value × Value × Value)
  | .list [.int r, .int s, .int recoveryId] => some (.int r, .int s, .int recoveryId)
  | .tuple [.int r, .int s, .int recoveryId] => some (.int r, .int s, .int recoveryId)
  | _ => none

/-- Asks an agent to sign a digest. -/
def replyOfAgent (address : Address) (unavailable : List FailureClass) (digest : Bytes) :
    Activity Value := do
  match ← (Activity.perform (.sign digest)).settle.attempt with
  | .ok reply => return reply
  | .error failure =>
    if unavailable.any failure.belongsTo then
      Activity.note .warning logger "Offline signer unavailable"
        [("address", address.toValue), ("error", .text failure.label)]
      Activity.fault <|
        .signer ("Signing agent unavailable: " ++ failure.label) .signerUnavailable "" address.text
    else Activity.fail failure

/-- The fault of a reply that is no signature. -/
def malformedReply (address : Address) : Fault :=
  .signer "Signing agent returned a malformed signature, expected (r, s, recovery_id)" .signer
    "MALFORMED_SIGNATURE" address.text

/-- The signature in the reply of an agent, which must be the one of the account. -/
def signatureOfReply (address : Address) (digest : Bytes) (reply : Value) : Outcome Signature :=
  match partsOfReply reply with
  | none => Outcome.fault (malformedReply address)
  | some (r, s, recoveryId) => do
    let signature ← Signature.create r s recoveryId
    if (← signature.recoverAddress digest) ≠ address then
      Outcome.fault (.signer "Signing agent signed with a different key" .signer "" address.text)
    return signature

/-- Takes the signature that an agent has replied with. -/
def acceptReply (address : Address) (digest : Bytes) (reply : Value) : Activity Signature := do
  if let .null := reply then
    Activity.fault <|
      .signer "Signing agent returned no signature" .signerUnavailable "" address.text
  if (partsOfReply reply).isNone then
    Activity.note .warning logger "Offline signer returned a malformed reply"
      [("address", address.toValue), ("reply_type", .text reply.kindName)]
  signatureOfReply address digest reply

/-- Lets an agent sign a digest, and checks what it replies. -/
def signOffline (address : Address) (unavailable : List FailureClass) (digest : Bytes) :
    Activity Signature := do
  acceptReply address digest (← replyOfAgent address unavailable digest)

def signDigest (signer : Signer) (digest : Bytes) : Activity Signature :=
  match signer with
  | keyed key => Activity.ofOutcome (key.signDigest digest)
  | nodeManaged address => Activity.fault <|
    .signer "Node-managed accounts cannot sign raw digests" .signer "UNSUPPORTED" address.text
  | offline address unavailable => signOffline address unavailable digest

/-- What is signed for a message: the message behind a marker and its length, so that no message is
mistaken for a transaction. -/
def messageDigest (message : Bytes) : Bytes :=
  let marker := "\x19Ethereum Signed Message:\n" ++ toString message.length
  Keccak.digest (marker.toUTF8.toList ++ message)

def octetsOfMessage : Value → Outcome Bytes
  | .text message => .ok message.toUTF8.toList
  | .brokenText _ => Outcome.condition .unencodableText
  | .bytes octets => .ok octets
  | .buffer octets => .ok octets
  | _ => Outcome.condition .wrongKind

/-- Signs a message. Only a signer that holds a key does. -/
def signMessage (signer : Signer) (message : Value) : Outcome Signature :=
  match signer with
  | keyed key => do
    let octets ← octetsOfMessage message
    key.checkOpen
    return key.signatureOf (messageDigest octets)
  | _ => Outcome.condition .missingMember

def signTransaction (signer : Signer) (transport : Transport) (request : TransactionRequest) :
    Activity Bytes := do
  let request ← signer.checkSender request
  match signer with
  | keyed key =>
    key.checkOpen
    let raw ← key.signFields request.accountFields
    Activity.note .debug logger "Signed transaction locally"
      [("address", signer.address.toValue), ("nonce", .ofNat? request.nonce),
        ("chain_id", .ofNat? request.chainId)]
    return raw
  | nodeManaged _ =>
    let raw ← rawOfReply (← transport.send "eth_signTransaction" [.dict request.toRpc])
    Activity.note .debug logger "Signed transaction via node"
      [("address", signer.address.toValue), ("nonce", .ofNat? request.nonce)]
    return raw
  | offline address unavailable =>
    let digest ← request.signingDigest
    request.encodeSigned (← signOffline address unavailable digest)

end Signer

end ContractClient
