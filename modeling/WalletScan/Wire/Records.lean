import WalletScan.Wire.Basic
import WalletScan.Block
import WalletScan.Classify

/-!
# The JSON of blocks, transactions and extracted records

Every record is an object whose members stand in the order given here. The number of places of a
coin is a number of 32 bits, every other number one of 64.
-/

set_option autoImplicit false

namespace WalletScan

open Wire
open Json (Form Value)

/-- The balance of an address, in whole units of the asset. -/
structure Balance where
  address : String
  symbol : String
  balance : String
deriving DecidableEq, Repr

instance : Wire BlockHeader where
  form := Form.record
    [ field String "hash",
      field String "previous_hash",
      field UInt64 "height",
      field UInt64 "timestamp" ]
  toValue a := .object
    [ ("hash", toValue a.hash),
      ("previous_hash", toValue a.previousHash),
      ("height", toValue a.height),
      ("timestamp", toValue a.timestamp) ]
  ofValue?
    | .object members => do
      pure
        { hash := ← member? members "hash"
          previousHash := ← member? members "previous_hash"
          height := ← member? members "height"
          timestamp := ← member? members "timestamp" }
    | _ => none

instance : Wire Block where
  form := Form.record
    [ field BlockHeader "header",
      field (List String) "transactions" ]
  toValue a := .object
    [ ("header", toValue a.header),
      ("transactions", toValue a.transactions) ]
  ofValue?
    | .object members => do
      pure
        { header := ← member? members "header"
          transactions := ← member? members "transactions" }
    | _ => none

instance : Wire Cursor where
  form := Form.record
    [ field UInt64 "height",
      field String "hash" ]
  toValue a := .object
    [ ("height", toValue a.height),
      ("hash", toValue a.hash) ]
  ofValue?
    | .object members => do
      pure
        { height := ← member? members "height"
          hash := ← member? members "hash" }
    | _ => none

instance : Wire UnscannedRecord where
  form := Form.record
    [ field String "id",
      field UInt64 "height",
      field String "txid",
      field String "reason" ]
  toValue a := .object
    [ ("id", toValue a.id),
      ("height", toValue a.height),
      ("txid", toValue a.txid),
      ("reason", toValue a.reason) ]
  ofValue?
    | .object members => do
      pure
        { id := ← member? members "id"
          height := ← member? members "height"
          txid := ← member? members "txid"
          reason := ← member? members "reason" }
    | _ => none

instance : Wire Party where
  form := Form.record
    [ field String "address",
      field UInt64 "amount" ]
  toValue a := .object
    [ ("address", toValue a.address),
      ("amount", toValue a.amount) ]
  ofValue?
    | .object members => do
      pure
        { address := ← member? members "address"
          amount := ← member? members "amount" }
    | _ => none

instance : Wire TransferGroup where
  form := Form.record
    [ field String "denom",
      field (List Party) "from",
      field (List Party) "to" ]
  toValue a := .object
    [ ("denom", toValue a.denom),
      ("from", toValue a.senders),
      ("to", toValue a.receivers) ]
  ofValue?
    | .object members => do
      pure
        { denom := ← member? members "denom"
          senders := ← member? members "from"
          receivers := ← member? members "to" }
    | _ => none

instance : Wire Transaction where
  form := Form.record
    [ field String "txid",
      field UInt64 "block_height",
      field String "memo",
      field (List TransferGroup) "groups" ]
  toValue a := .object
    [ ("txid", toValue a.txid),
      ("block_height", toValue a.height),
      ("memo", toValue a.memo),
      ("groups", toValue a.groups) ]
  ofValue?
    | .object members => do
      pure
        { txid := ← member? members "txid"
          height := ← member? members "block_height"
          memo := ← member? members "memo"
          groups := ← member? members "groups" }
    | _ => none

instance : Wire TxType where
  form := Form.choice [⟨"Transfer", none⟩, ⟨"FeeCharge", none⟩]
  toValue
    | .transfer => .text "Transfer"
    | .feeCharge => .text "FeeCharge"
  ofValue?
    | .text "Transfer" => some .transfer
    | .text "FeeCharge" => some .feeCharge
    | _ => none

instance : Wire TxStatus where
  form := Form.choice [⟨"Success", none⟩, ⟨"Failed", none⟩]
  toValue
    | .success => .text "Success"
    | .failed => .text "Failed"
  ofValue?
    | .text "Success" => some .success
    | .text "Failed" => some .failed
    | _ => none

instance : Wire Coin where
  form := Form.record
    [ field String "symbol",
      field String "denom",
      field String "contract_id",
      field String "name",
      field UInt32 "decimals" ]
  toValue a := .object
    [ ("symbol", toValue a.symbol),
      ("denom", toValue a.denom),
      ("contract_id", toValue a.contractId),
      ("name", toValue a.name),
      ("decimals", toValue a.decimals) ]
  ofValue?
    | .object members => do
      pure
        { symbol := ← member? members "symbol"
          denom := ← member? members "denom"
          contractId := ← member? members "contract_id"
          name := ← member? members "name"
          decimals := ← member? members "decimals" }
    | _ => none

instance : Wire TxInput where
  form := Form.record
    [ field String "sid",
      field String "txid",
      field UInt64 "index",
      field String "address",
      field UInt64 "amount",
      field Coin "coin",
      field UInt64 "block_height",
      field String "block_hash",
      field String "memo",
      field TxType "tx_type" ]
  toValue a := .object
    [ ("sid", toValue a.sid),
      ("txid", toValue a.txid),
      ("index", toValue a.index),
      ("address", toValue a.address),
      ("amount", toValue a.amount),
      ("coin", toValue a.coin),
      ("block_height", toValue a.blockHeight),
      ("block_hash", toValue a.blockHash),
      ("memo", toValue a.memo),
      ("tx_type", toValue a.txType) ]
  ofValue?
    | .object members => do
      pure
        { sid := ← member? members "sid"
          txid := ← member? members "txid"
          index := ← member? members "index"
          address := ← member? members "address"
          amount := ← member? members "amount"
          coin := ← member? members "coin"
          blockHeight := ← member? members "block_height"
          blockHash := ← member? members "block_hash"
          memo := ← member? members "memo"
          txType := ← member? members "tx_type" }
    | _ => none

instance : Wire TxOutput where
  form := Form.record
    [ field String "sid",
      field String "txid",
      field UInt64 "index",
      field String "address",
      field UInt64 "amount",
      field Coin "coin",
      field UInt64 "block_height",
      field String "block_hash",
      field String "memo" ]
  toValue a := .object
    [ ("sid", toValue a.sid),
      ("txid", toValue a.txid),
      ("index", toValue a.index),
      ("address", toValue a.address),
      ("amount", toValue a.amount),
      ("coin", toValue a.coin),
      ("block_height", toValue a.blockHeight),
      ("block_hash", toValue a.blockHash),
      ("memo", toValue a.memo) ]
  ofValue?
    | .object members => do
      pure
        { sid := ← member? members "sid"
          txid := ← member? members "txid"
          index := ← member? members "index"
          address := ← member? members "address"
          amount := ← member? members "amount"
          coin := ← member? members "coin"
          blockHeight := ← member? members "block_height"
          blockHash := ← member? members "block_hash"
          memo := ← member? members "memo" }
    | _ => none

instance : Wire TransactionSummary where
  form := Form.record
    [ field String "wx_id",
      field String "txid",
      field (List String) "from",
      field (List String) "to",
      optionalField UInt64 "amount",
      field UInt64 "fees",
      field Coin "coin",
      field UInt64 "block_height",
      field String "block_hash",
      field TxStatus "status",
      field String "memo",
      field TxType "tx_type" ]
  toValue a := .object
    [ ("wx_id", toValue a.wxId),
      ("txid", toValue a.txid),
      ("from", toValue a.senders),
      ("to", toValue a.receivers),
      ("amount", toValue a.amount),
      ("fees", toValue a.fees),
      ("coin", toValue a.coin),
      ("block_height", toValue a.blockHeight),
      ("block_hash", toValue a.blockHash),
      ("status", toValue a.status),
      ("memo", toValue a.memo),
      ("tx_type", toValue a.txType) ]
  ofValue?
    | .object members => do
      pure
        { wxId := ← member? members "wx_id"
          txid := ← member? members "txid"
          senders := ← member? members "from"
          receivers := ← member? members "to"
          amount := ← member? members "amount"
          fees := ← member? members "fees"
          coin := ← member? members "coin"
          blockHeight := ← member? members "block_height"
          blockHash := ← member? members "block_hash"
          status := ← member? members "status"
          memo := ← member? members "memo"
          txType := ← member? members "tx_type" }
    | _ => none

instance : Wire ExtractedData where
  form := Form.record
    [ field (List TxInput) "inputs",
      field (List TxOutput) "outputs",
      optionalField TransactionSummary "transaction" ]
  toValue a := .object
    [ ("inputs", toValue a.inputs),
      ("outputs", toValue a.outputs),
      ("transaction", toValue a.transaction) ]
  ofValue?
    | .object members => do
      pure
        { inputs := ← member? members "inputs"
          outputs := ← member? members "outputs"
          transaction := ← member? members "transaction" }
    | _ => none

instance : Wire Balance where
  form := Form.record
    [ field String "address",
      field String "symbol",
      field String "balance" ]
  toValue a := .object
    [ ("address", toValue a.address),
      ("symbol", toValue a.symbol),
      ("balance", toValue a.balance) ]
  ofValue?
    | .object members => do
      pure
        { address := ← member? members "address"
          symbol := ← member? members "symbol"
          balance := ← member? members "balance" }
    | _ => none

instance : Wire ChainAsset where
  form := Form.record
    [ field String "symbol",
      field String "name",
      field String "native_denom",
      field UInt32 "decimals" ]
  toValue a := .object
    [ ("symbol", toValue a.symbol),
      ("name", toValue a.name),
      ("native_denom", toValue a.nativeDenom),
      ("decimals", toValue a.decimals) ]
  ofValue?
    | .object members => do
      pure
        { symbol := ← member? members "symbol"
          name := ← member? members "name"
          nativeDenom := ← member? members "native_denom"
          decimals := ← member? members "decimals" }
    | _ => none

instance : Wire WatchEntry where
  form := Form.record
    [ field String "address",
      field String "source_key" ]
  toValue a := .object
    [ ("address", toValue a.address),
      ("source_key", toValue a.sourceKey) ]
  ofValue?
    | .object members => do
      pure
        { address := ← member? members "address"
          sourceKey := ← member? members "source_key" }
    | _ => none

instance : Wire Bucket where
  form := Form.choice [⟨"Asset", some Form.text⟩, ⟨"Fee", none⟩]
  toValue
    | .asset denom => .object [("Asset", .text denom)]
    | .fee => .text "Fee"
  ofValue?
    | .object [("Asset", .text denom)] => some (.asset denom)
    | .text "Fee" => some .fee
    | _ => none

instance : Wire OwnerKey where
  form := Form.record
    [ field Bucket "bucket",
      field String "source_key" ]
  toValue a := .object
    [ ("bucket", toValue a.bucket),
      ("source_key", toValue a.sourceKey) ]
  ofValue?
    | .object members => do
      pure
        { bucket := ← member? members "bucket"
          sourceKey := ← member? members "source_key" }
    | _ => none

end WalletScan
