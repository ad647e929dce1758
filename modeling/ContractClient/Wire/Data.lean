import ContractClient.Failure

/-!
# Data

Byte strings are exchanged with nodes as `0x` and two hexadecimal digits for each byte. Reading
accepts letters of either case and one line break at the end.
-/

namespace ContractClient.Data

def ofBytes (octets : Bytes) : String :=
  Hex.text octets

/-- The bytes of a value that converts to a byte string. A number gives that many zeros, a sequence
of numbers below 256 the bytes with these values. -/
def bytesOfValue (value : Value) : Outcome Bytes :=
  match value with
  | .bytes octets => .ok octets
  | .buffer octets => .ok octets
  | .bool flag => .ok (Bytes.zeros (if flag then 1 else 0))
  | .int count =>
    if count < 0 then Outcome.condition .badValue
    else if (2 : Int) ^ 63 ≤ count then Outcome.condition .overflow
    else .ok (Bytes.zeros count.toNat)
  | .list items => octetsOfItems items
  | .tuple items => octetsOfItems items
  | .sequence _ _ items => octetsOfItems items
  | .dict [] => .ok []
  | _ => Outcome.condition .wrongKind
where
  /-- The bytes with the given values. -/
  octetsOfItems : List Value → Outcome Bytes
    | [] => .ok []
    | item :: items => do
      let octet ← match item with
        | .int octet =>
          if 0 ≤ octet ∧ octet < 256 then .ok (UInt8.ofNat octet.toNat)
          else Outcome.condition .badValue
        | .bool flag => .ok (if flag then 1 else 0)
        | _ => Outcome.condition .wrongKind
      let octets ← octetsOfItems items
      .ok (octet :: octets)

/-- The text of a value that converts to a byte string. -/
def ofValue (value : Value) : Outcome String := do
  let octets ← bytesOfValue value
  .ok (ofBytes octets)

def ofText? (characters : List Char) : Option Bytes :=
  match characters with
  | '0' :: 'x' :: digits =>
    match Hex.decode? digits with
    | some octets => some octets
    | none => if digits.getLast? == some '\n' then Hex.decode? digits.dropLast else none
  | _ => none

/-- The bytes that a value stands for. Byte strings stand for themselves. -/
def toBytes (value : Value) : Outcome Bytes :=
  match value with
  | .bytes octets => .ok octets
  | .buffer octets => .ok octets
  | .text characters => match ofText? characters.toList with
    | some octets => .ok octets
    | none => invalid value
  | _ => invalid value
where
  /-- The failure of a value that is no data. -/
  invalid (value : Value) : Outcome Bytes :=
    Outcome.fault (.validation ("Invalid hex data: " ++ value.render))

end ContractClient.Data
