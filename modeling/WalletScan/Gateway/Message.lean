import WalletScan.Wire.Records

/-!
# What a gateway answers

The gateway of a chain answers in JSON. Each reply is a record here, with the defaults of the
members that a gateway may leave out, and `TransactionReply.transaction` turns the two sides of a
transfer into groups by denomination.

Specification: section 11 (`HttpChainSource`).
-/

set_option autoImplicit false

namespace WalletScan.Gateway

open Wire
open Json (Form Value)

/-- The answer to a question for the tip. -/
structure TipReply where
  height : UInt64
  hash : Option String
deriving DecidableEq, Repr

instance : Wire TipReply where
  form := Form.record
    [ field UInt64 "height",
      defaultField "hash" (none : Option String) ]
  toValue a := .object
    [ ("height", toValue a.height),
      ("hash", toValue a.hash) ]
  ofValue?
    | .object members => do
      pure
        { height := ← member? members "height"
          hash := ← member? members "hash" }
    | _ => none

/-- The answer to a question for a block. -/
structure BlockReply where
  hash : String
  previousHash : String
  height : UInt64
  timestamp : UInt64
  transactions : List String
deriving DecidableEq, Repr

instance : Wire BlockReply where
  form := Form.record
    [ field String "hash",
      field String "previous_hash",
      field UInt64 "height",
      defaultField "timestamp" (0 : UInt64),
      defaultField "transactions" ([] : List String) ]
  toValue a := .object
    [ ("hash", toValue a.hash),
      ("previous_hash", toValue a.previousHash),
      ("height", toValue a.height),
      ("timestamp", toValue a.timestamp),
      ("transactions", toValue a.transactions) ]
  ofValue?
    | .object members => do
      pure
        { hash := ← member? members "hash"
          previousHash := ← member? members "previous_hash"
          height := ← member? members "height"
          timestamp := ← member? members "timestamp"
          transactions := ← member? members "transactions" }
    | _ => none

/-- An amount of a denomination. -/
structure CoinAmount where
  denom : String
  amount : UInt64
deriving DecidableEq, Repr

instance : Wire CoinAmount where
  form := Form.record
    [ field String "denom",
      field UInt64 "amount" ]
  toValue a := .object
    [ ("denom", toValue a.denom),
      ("amount", toValue a.amount) ]
  ofValue?
    | .object members => do
      pure
        { denom := ← member? members "denom"
          amount := ← member? members "amount" }
    | _ => none

/-- One side of a transfer message: an address and the coins that it sends or receives. -/
structure TransferParty where
  address : String
  coins : List CoinAmount
deriving DecidableEq, Repr

instance : Wire TransferParty where
  form := Form.record
    [ field String "address",
      defaultField "coins" ([] : List CoinAmount) ]
  toValue a := .object
    [ ("address", toValue a.address),
      ("coins", toValue a.coins) ]
  ofValue?
    | .object members => do
      pure
        { address := ← member? members "address"
          coins := ← member? members "coins" }
    | _ => none

/-- The answer to a question for a transaction. -/
structure TransactionReply where
  txid : String
  height : UInt64
  memo : String
  inputs : List TransferParty
  outputs : List TransferParty
deriving DecidableEq, Repr

instance : Wire TransactionReply where
  form := Form.record
    [ field String "txid",
      defaultField "block_height" (0 : UInt64),
      defaultField "memo" ("" : String),
      defaultField "inputs" ([] : List TransferParty),
      defaultField "outputs" ([] : List TransferParty) ]
  toValue a := .object
    [ ("txid", toValue a.txid),
      ("block_height", toValue a.height),
      ("memo", toValue a.memo),
      ("inputs", toValue a.inputs),
      ("outputs", toValue a.outputs) ]
  ofValue?
    | .object members => do
      pure
        { txid := ← member? members "txid"
          height := ← member? members "block_height"
          memo := ← member? members "memo"
          inputs := ← member? members "inputs"
          outputs := ← member? members "outputs" }
    | _ => none

/-- The answer to a question for the pending transactions. -/
structure MempoolReply where
  txids : List String
deriving DecidableEq, Repr

instance : Wire MempoolReply where
  form := Form.record
    [ defaultField "txids" ([] : List String) ]
  toValue a := .object
    [ ("txids", toValue a.txids) ]
  ofValue?
    | .object members => do
      pure
        { txids := ← member? members "txids" }
    | _ => none

/-- The answer to a question for the fees of a height. -/
structure FeeReply where
  height : UInt64
  single : UInt64
  multi : UInt64
deriving DecidableEq, Repr

instance : Wire FeeReply where
  form := Form.record
    [ field UInt64 "height",
      field UInt64 "single",
      field UInt64 "multi" ]
  toValue a := .object
    [ ("height", toValue a.height),
      ("single", toValue a.single),
      ("multi", toValue a.multi) ]
  ofValue?
    | .object members => do
      pure
        { height := ← member? members "height"
          single := ← member? members "single"
          multi := ← member? members "multi" }
    | _ => none

/-- A balance of a denomination. -/
structure BalanceEntry where
  denom : String
  free : UInt64
deriving DecidableEq, Repr

instance : Wire BalanceEntry where
  form := Form.record
    [ field String "denom",
      field UInt64 "free" ]
  toValue a := .object
    [ ("denom", toValue a.denom),
      ("free", toValue a.free) ]
  ofValue?
    | .object members => do
      pure
        { denom := ← member? members "denom"
          free := ← member? members "free" }
    | _ => none

/-- The answer to a question for the balances of an address. -/
structure AccountReply where
  address : String
  balances : List BalanceEntry
deriving DecidableEq, Repr

instance : Wire AccountReply where
  form := Form.record
    [ field String "address",
      defaultField "balances" ([] : List BalanceEntry) ]
  toValue a := .object
    [ ("address", toValue a.address),
      ("balances", toValue a.balances) ]
  ofValue?
    | .object members => do
      pure
        { address := ← member? members "address"
          balances := ← member? members "balances" }
    | _ => none

/-- The answer to a question for the history of an address. -/
structure HistoryReply where
  txs : List TransactionReply
deriving DecidableEq, Repr

instance : Wire HistoryReply where
  form := Form.record
    [ defaultField "txs" ([] : List TransactionReply) ]
  toValue a := .object
    [ ("txs", toValue a.txs) ]
  ofValue?
    | .object members => do
      pure
        { txs := ← member? members "txs" }
    | _ => none

/-- The block of a reply. -/
def BlockReply.block (r : BlockReply) : Block :=
  ⟨⟨r.hash, r.previousHash, r.height, r.timestamp⟩, r.transactions⟩

/-- The transaction of a reply: every input coin and then every output coin, in order, joins the
group of its denomination. -/
def TransactionReply.transaction (r : TransactionReply) : Transaction :=
  let start : Transaction := ⟨r.txid, r.height, r.memo, []⟩
  let withInputs := r.inputs.foldl
    (fun tx p => p.coins.foldl (fun tx c => tx.addSender c.denom ⟨p.address, c.amount⟩) tx) start
  r.outputs.foldl
    (fun tx p => p.coins.foldl (fun tx c => tx.addReceiver c.denom ⟨p.address, c.amount⟩) tx)
    withInputs

end WalletScan.Gateway
