/-!
# Decoded transactions

A transaction moves amounts of several denominations. `Transaction.groups` holds one group per
denomination in order of first appearance; `addSender` and `addReceiver` extend the first group of a
denomination or open a new one at the end.

Specification: section 4.4, the groups of a transaction (`TransferGroup`) and the kinds of fees.
-/

set_option autoImplicit false

namespace WalletScan

/-- An address and the amount it sent or received, in the denomination's smallest unit. -/
structure Party where
  address : String
  amount : UInt64
deriving DecidableEq, Repr

/-- The text `address:amount` of summaries. -/
def Party.pair (p : Party) : String := p.address ++ ":" ++ toString p.amount.toNat

/-- All movements of one denomination inside a transaction. -/
structure TransferGroup where
  denom : String
  senders : List Party
  receivers : List Party
deriving DecidableEq, Repr

/-- Whether several parties stand on one side of a group. -/
def TransferGroup.isMultiParty (g : TransferGroup) : Bool :=
  decide (1 < g.senders.length) || decide (1 < g.receivers.length)

/-- A decoded transaction; its height is zero while it waits in the mempool. -/
structure Transaction where
  txid : String
  height : UInt64
  memo : String
  groups : List TransferGroup
deriving DecidableEq, Repr

/-- Which fee schedule applies to a transaction. -/
inductive FeeKind where
  /-- One denomination, one sender and one receiver at most. -/
  | single
  /-- Several denominations, or several parties on a side, or no movement at all. -/
  | multi
deriving DecidableEq, Repr

/-- Changes the first group of a denomination, after adding an empty one if there is none. -/
def updateGroup (denom : String) (change : TransferGroup → TransferGroup) :
    List TransferGroup → List TransferGroup
  | [] => [change ⟨denom, [], []⟩]
  | g :: rest => if g.denom = denom then change g :: rest else g :: updateGroup denom change rest

/-- Appends a sender to its denomination's group. -/
def Transaction.addSender (tx : Transaction) (denom : String) (p : Party) : Transaction :=
  { tx with
    groups := updateGroup denom (fun g => { g with senders := g.senders ++ [p] }) tx.groups }

/-- Appends a receiver to its denomination's group. -/
def Transaction.addReceiver (tx : Transaction) (denom : String) (p : Party) : Transaction :=
  { tx with
    groups := updateGroup denom (fun g => { g with receivers := g.receivers ++ [p] }) tx.groups }

/-- The fee schedule of a transaction. -/
def Transaction.feeKind (tx : Transaction) : FeeKind :=
  match tx.groups with
  | [g] => if g.isMultiParty then .multi else .single
  | _ => .multi

end WalletScan
