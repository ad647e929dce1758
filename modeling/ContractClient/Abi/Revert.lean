import ContractClient.Abi.Decoding
import ContractClient.Wire.Data

/-!
# Reasons of reverts

A reverted call returns a payload that starts with a selector: one for a message, one for a panic
with a number, or that of a custom error. `decodeRevertReason` explains the first two.
-/

namespace ContractClient

def messageSelector : Bytes := [0x08, 0xc3, 0x79, 0xa0]

/-- The selector of a payload that carries the number of a panic. -/
def panicSelector : Bytes := [0x4e, 0x48, 0x7b, 0x71]

def panicDescription : Nat → String
  | 0x00 => "generic compiler panic"
  | 0x01 => "assertion failed"
  | 0x11 => "arithmetic overflow or underflow"
  | 0x12 => "division or modulo by zero"
  | 0x21 => "invalid enum value"
  | 0x22 => "invalid storage byte array encoding"
  | 0x31 => "pop on empty array"
  | 0x32 => "array index out of bounds"
  | 0x41 => "out of memory"
  | 0x51 => "call to zero-initialized internal function"
  | _ => "unknown panic code"

def panicReason (number : Nat) : String :=
  "panic: 0x" ++ String.ofList (Nat.toDigits 16 number) ++ " (" ++ panicDescription number ++ ")"

/-- The reason in the payload of a revert. A payload that is malformed or that nobody knows has no
reason. -/
def decodeRevertReason (data : Bytes) : Option String :=
  let body := data.drop 4
  if data.take 4 = messageSelector then
    match decodeSingle .string body with
    | .ok (.text message) => some message
    | _ => none
  else if data.take 4 = panicSelector then
    match decodeSingle (.uint 256) body with
    | .ok (.int number) => some (panicReason number.toNat)
    | _ => none
  else none

def encodeRevertReason (message : Value) : Outcome Bytes := do
  return messageSelector ++ (← encodeSingle .string message)

/-- The payload of a revert in the data of a node's error: the data itself, or its member `data`,
or else its member `result`. -/
def revertPayload? (data : Value) : Option Bytes :=
  let payload := match data with
    | .dict entries =>
      match Dict.get? entries "data" with
      | some inner => inner
      | none => Value.ofOption (Dict.get? entries "result")
    | other => other
  match payload with
  | .text characters => Data.ofText? characters.toList
  | _ => none

end ContractClient
