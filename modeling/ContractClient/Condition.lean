/-!
# Conditions

A computation can be interrupted by a condition that is no fault of this library: one that its own
handling of a value meets (a key that is missing, a number out of range), or one that a collaborator
reports (a connection that is lost). Conditions form a hierarchy: to handle one is to handle all
below it. `Condition.label` is the name under which messages and logs report a condition.
-/

namespace ContractClient

/-- What can interrupt a computation from outside. -/
inductive Condition where
  | anything
  | assertion | endOfInput | outOfMemory
  | arithmetic | overflow | divisionByZero
  | lookup | missingKey | missingIndex
  | wrongKind | missingMember
  | badValue | badText | unencodableText | undecodableText
  | runtime | notImplemented | recursion
  | system | timeout | permission | missingFile | interruptedCall | wouldBlock
  | connection | connectionReset | connectionRefused | connectionAborted | brokenPipe
  | badSignature
  | cancelled | keyboardInterrupt | exit
  | httpError | httpRequest | httpStatus | httpDecoding | httpTooManyRedirects | httpInvalidUrl
  | httpTransport | httpProxy | httpUnsupportedProtocol
  | httpTimeout | httpConnectTimeout | httpReadTimeout | httpWriteTimeout | httpPoolTimeout
  | httpNetwork | httpConnect | httpRead | httpWrite | httpClose
  | httpProtocol | httpLocalProtocol | httpRemoteProtocol
  deriving DecidableEq, Repr, Inhabited

namespace Condition

/-- The name under which messages and logs report a condition. -/
def label : Condition → String
  | anything => "Exception"
  | assertion => "AssertionError"
  | endOfInput => "EOFError"
  | outOfMemory => "MemoryError"
  | arithmetic => "ArithmeticError"
  | overflow => "OverflowError"
  | divisionByZero => "ZeroDivisionError"
  | lookup => "LookupError"
  | missingKey => "KeyError"
  | missingIndex => "IndexError"
  | wrongKind => "TypeError"
  | missingMember => "AttributeError"
  | badValue => "ValueError"
  | badText => "UnicodeError"
  | unencodableText => "UnicodeEncodeError"
  | undecodableText => "UnicodeDecodeError"
  | runtime => "RuntimeError"
  | notImplemented => "NotImplementedError"
  | recursion => "RecursionError"
  | system => "OSError"
  | timeout => "TimeoutError"
  | permission => "PermissionError"
  | missingFile => "FileNotFoundError"
  | interruptedCall => "InterruptedError"
  | wouldBlock => "BlockingIOError"
  | connection => "ConnectionError"
  | connectionReset => "ConnectionResetError"
  | connectionRefused => "ConnectionRefusedError"
  | connectionAborted => "ConnectionAbortedError"
  | brokenPipe => "BrokenPipeError"
  | badSignature => "BadSignature"
  | cancelled => "CancelledError"
  | keyboardInterrupt => "KeyboardInterrupt"
  | exit => "SystemExit"
  | httpError => "HTTPError"
  | httpRequest => "RequestError"
  | httpStatus => "HTTPStatusError"
  | httpDecoding => "DecodingError"
  | httpTooManyRedirects => "TooManyRedirects"
  | httpInvalidUrl => "InvalidURL"
  | httpTransport => "TransportError"
  | httpProxy => "ProxyError"
  | httpUnsupportedProtocol => "UnsupportedProtocol"
  | httpTimeout => "TimeoutException"
  | httpConnectTimeout => "ConnectTimeout"
  | httpReadTimeout => "ReadTimeout"
  | httpWriteTimeout => "WriteTimeout"
  | httpPoolTimeout => "PoolTimeout"
  | httpNetwork => "NetworkError"
  | httpConnect => "ConnectError"
  | httpRead => "ReadError"
  | httpWrite => "WriteError"
  | httpClose => "CloseError"
  | httpProtocol => "ProtocolError"
  | httpLocalProtocol => "LocalProtocolError"
  | httpRemoteProtocol => "RemoteProtocolError"

/-- The conditions directly and indirectly above a condition, nearest first. -/
def above : Condition → List Condition
  | anything | cancelled | keyboardInterrupt | exit => []
  | overflow | divisionByZero => [arithmetic, anything]
  | missingKey | missingIndex => [lookup, anything]
  | badText => [badValue, anything]
  | unencodableText | undecodableText => [badText, badValue, anything]
  | notImplemented | recursion => [runtime, anything]
  | timeout | permission | missingFile | interruptedCall | wouldBlock | connection =>
    [system, anything]
  | connectionReset | connectionRefused | connectionAborted | brokenPipe =>
    [connection, system, anything]
  | httpRequest | httpStatus => [httpError, anything]
  | httpDecoding | httpTooManyRedirects | httpTransport => [httpRequest, httpError, anything]
  | httpProxy | httpUnsupportedProtocol | httpTimeout | httpNetwork | httpProtocol =>
    [httpTransport, httpRequest, httpError, anything]
  | httpConnectTimeout | httpReadTimeout | httpWriteTimeout | httpPoolTimeout =>
    [httpTimeout, httpTransport, httpRequest, httpError, anything]
  | httpConnect | httpRead | httpWrite | httpClose =>
    [httpNetwork, httpTransport, httpRequest, httpError, anything]
  | httpLocalProtocol | httpRemoteProtocol =>
    [httpProtocol, httpTransport, httpRequest, httpError, anything]
  | _ => [anything]

def all : List Condition := [
  anything, assertion, endOfInput, outOfMemory, arithmetic, overflow, divisionByZero, lookup,
  missingKey, missingIndex, wrongKind, missingMember, badValue, badText, unencodableText,
  undecodableText, runtime, notImplemented, recursion, system, timeout, permission, missingFile,
  interruptedCall, wouldBlock, connection, connectionReset, connectionRefused, connectionAborted,
  brokenPipe, badSignature, cancelled, keyboardInterrupt, exit, httpError, httpRequest,
  httpStatus, httpDecoding, httpTooManyRedirects, httpInvalidUrl, httpTransport, httpProxy,
  httpUnsupportedProtocol, httpTimeout, httpConnectTimeout, httpReadTimeout, httpWriteTimeout,
  httpPoolTimeout, httpNetwork, httpConnect, httpRead, httpWrite, httpClose, httpProtocol,
  httpLocalProtocol, httpRemoteProtocol]

def ofLabel? (name : String) : Option Condition :=
  all.find? fun condition => label condition == name

/-- Whether a condition is another one or stands below it. -/
def isA (condition other : Condition) : Bool :=
  condition == other || (above condition).contains other

end Condition

end ContractClient
