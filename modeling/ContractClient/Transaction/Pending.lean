import ContractClient.Transaction.Policy

/-!
# Pending transactions

A pending transaction has been handed to a node. It is watched until it is confirmed, until it turns
out to have failed, or until the wait for it expires.
-/

namespace ContractClient

/-- How far a transaction has come. -/
inductive TransactionState where
  | building | signed | submitted | mined | confirmed | timedOut | reverted
  deriving DecidableEq, Repr, Inhabited

namespace TransactionState

def label : TransactionState → String
  | building => "building"
  | signed => "signed"
  | submitted => "submitted"
  | mined => "mined"
  | confirmed => "confirmed"
  | timedOut => "timed_out"
  | reverted => "reverted"

def all : List TransactionState :=
  [building, signed, submitted, mined, confirmed, timedOut, reverted]

def isTerminal : TransactionState → Bool
  | confirmed | timedOut | reverted => true
  | _ => false

end TransactionState

/-- A transaction that was handed to a node, and what is known about it. -/
structure PendingTransaction where
  /-- The hash that the node returned, whatever it is. -/
  txHash : Value
  policy : ConfirmationPolicy := {}
  state : TransactionState := .submitted
  /-- The block of the receipt. -/
  blockNumber : Option Int := none
  receipt : Option Dict := none
  revertReason : Option String := none
  /-- The request that was signed, by which a failure can be reproduced. -/
  request : Option TransactionRequest := none
  deriving Inhabited

namespace PendingTransaction

def isMined (pending : PendingTransaction) : Bool :=
  pending.blockNumber.isSome

/-- A transaction that has no receipt, or has none any more. -/
def unmined (pending : PendingTransaction) : PendingTransaction :=
  { pending with state := .submitted, blockNumber := none, receipt := none }

/-- A transaction with a receipt that puts it into a block. -/
def minedAt (pending : PendingTransaction) (block : Int) (receipt : Dict) : PendingTransaction :=
  { pending with state := .mined, blockNumber := some block, receipt := some receipt }

def confirmedAt (pending : PendingTransaction) (block : Int) (receipt : Dict) :
    PendingTransaction :=
  { pending.minedAt block receipt with state := .confirmed }

end PendingTransaction

end ContractClient
