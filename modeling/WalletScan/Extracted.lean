import WalletScan.Digest.Sha256

/-!
# Extracted records

What a transaction means for one owner: value that left an address, value that arrived at an
address, and a summary of the movement. Every record carries a derived identifier.

Specification: section 3 (`ExtractedData`), and section 11 for the identifiers.
-/

set_option autoImplicit false

namespace WalletScan

/-- What kind of movement a record describes. -/
inductive TxType where
  | transfer
  | feeCharge
deriving DecidableEq, Repr

/-- The number of a kind of movement inside identifiers. -/
def TxType.code : TxType → Nat
  | .transfer => 0
  | .feeCharge => 1

/-- Whether a movement took effect. -/
inductive TxStatus where
  | success
  | failed
deriving DecidableEq, Repr

/-- The asset that a record is denominated in. -/
structure Coin where
  symbol : String
  denom : String
  contractId : String
  name : String
  decimals : UInt32
deriving DecidableEq, Repr

/-- The contract identifier of a denomination of a chain. -/
def Coin.contractIdOf (symbol denom : String) : String := Sha256.hexOfText (symbol ++ "_" ++ denom)

/-- A coin under its computed contract identifier. -/
def Coin.of (symbol denom name : String) (decimals : UInt32) : Coin :=
  ⟨symbol, denom, contractIdOf symbol denom, name, decimals⟩

/-- Value leaving an address. -/
structure TxInput where
  sid : String
  txid : String
  index : UInt64
  address : String
  amount : UInt64
  coin : Coin
  blockHeight : UInt64
  blockHash : String
  memo : String
  txType : TxType
deriving DecidableEq, Repr

/-- Value arriving at an address. -/
structure TxOutput where
  sid : String
  txid : String
  index : UInt64
  address : String
  amount : UInt64
  coin : Coin
  blockHeight : UInt64
  blockHash : String
  memo : String
deriving DecidableEq, Repr

/-- The text that a record identifier digests; `side` tells inputs from outputs. -/
def sidText (side txid symbol denom : String) (index : UInt64) : String :=
  side ++ "_" ++ txid ++ "_" ++ symbol ++ "_" ++ denom ++ "_" ++ toString index.toNat

/-- The identifier of an input. -/
def TxInput.sidOf (txid symbol denom : String) (index : UInt64) : String :=
  Sha256.hexOfText (sidText "input" txid symbol denom index)

/-- The identifier of an output. -/
def TxOutput.sidOf (txid symbol denom : String) (index : UInt64) : String :=
  Sha256.hexOfText (sidText "output" txid symbol denom index)

/-- A transaction from one owner's point of view; the pairs read `address:amount`. -/
structure TransactionSummary where
  wxId : String
  txid : String
  senders : List String
  receivers : List String
  /-- Only set for fee charges. -/
  amount : Option UInt64
  fees : UInt64
  coin : Coin
  blockHeight : UInt64
  blockHash : String
  status : TxStatus
  memo : String
  txType : TxType
deriving DecidableEq, Repr

namespace TransactionSummary

/-- The text that the wallet-side identifier digests: the fields that identify the movement. -/
def wxIdText (s : TransactionSummary) : String :=
  s.txid ++ "_" ++ s.coin.contractId ++ "_" ++ toString s.txType.code ++ "_"
    ++ ",".intercalate s.senders ++ "_" ++ ",".intercalate s.receivers

/-- The summary under its computed identifier. -/
def withWxId (s : TransactionSummary) : TransactionSummary :=
  { s with wxId := Sha256.hexOfText s.wxIdText }

end TransactionSummary

/-- Everything that one transaction means for one owner. -/
structure ExtractedData where
  inputs : List TxInput
  outputs : List TxOutput
  transaction : Option TransactionSummary
deriving DecidableEq, Repr

namespace ExtractedData

/-- Data without any record. -/
def empty : ExtractedData := ⟨[], [], none⟩

/-- Whether there is no record at all. -/
def isEmpty (d : ExtractedData) : Bool :=
  d.inputs.isEmpty && d.outputs.isEmpty && d.transaction.isNone

/-- The same data with another block hash in every record. -/
def withBlockHash (hash : String) (d : ExtractedData) : ExtractedData :=
  { inputs := d.inputs.map fun i => { i with blockHash := hash }
    outputs := d.outputs.map fun o => { o with blockHash := hash }
    transaction := d.transaction.map fun s => { s with blockHash := hash } }

end ExtractedData

end WalletScan
