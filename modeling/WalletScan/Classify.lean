import WalletScan.Transaction
import WalletScan.Extracted
import WalletScan.Owner
import WalletScan.WatchList

/-!
# Attributing a transaction to its owners

For every group of a transaction, the owner of the first owned sender gets every sender of the group
as an input and the group's summary; the owner of the first owned receiver gets every receiver as an
output, and the summary unless it has one already. The fee of the transaction is charged once, to
the owner of the first owned sender of all, in the fee bucket and in the chain's native asset.

Classification is pure: the caller looks the fee up, after asking `feePayer` whether anybody pays.

Specification: section 4.4 (`TransactionClassifier`, `classify`).
-/

set_option autoImplicit false

namespace WalletScan

/-- The native asset of a chain. -/
structure ChainAsset where
  symbol : String
  name : String
  nativeDenom : String
  decimals : UInt32
deriving DecidableEq, Repr

/-- The asset that is assumed when none is configured. -/
def ChainAsset.default : ChainAsset := ⟨"BNB", "Binance Chain", "BNB", 8⟩

/-- The coin of a denomination; only the native one has decimals. -/
def ChainAsset.coin (asset : ChainAsset) (denom : String) : Coin :=
  Coin.of asset.symbol denom asset.name (if denom = asset.nativeDenom then asset.decimals else 0)

/-- The source that owns the first owned address of a list of parties. -/
def firstOwner (owners : Owners) (parties : List Party) : Option String :=
  parties.findSome? fun p => owners p.address

/-- The owned sender that a fee is charged to, and the group in which it was found. -/
structure FeePayer where
  group : Nat
  sourceKey : String
deriving DecidableEq, Repr

/-- The first group with an owned sender; only such a transaction carries a fee record. -/
def feePayer (owners : Owners) (tx : Transaction) : Option FeePayer :=
  tx.groups.zipIdx.findSome? fun (group, index) =>
    (firstOwner owners group.senders).map fun source => ⟨index, source⟩

namespace ChainAsset

/-- The input record of a sender. -/
def input (asset : ChainAsset) (tx : Transaction) (denom blockHash : String)
    (index : UInt64) (p : Party) : TxInput :=
  { sid := TxInput.sidOf tx.txid asset.symbol denom index
    txid := tx.txid
    index := index
    address := p.address
    amount := p.amount
    coin := asset.coin denom
    blockHeight := tx.height
    blockHash := blockHash
    memo := tx.memo
    txType := .transfer }

/-- The output record of a receiver. -/
def output (asset : ChainAsset) (tx : Transaction) (denom blockHash : String)
    (index : UInt64) (p : Party) : TxOutput :=
  { sid := TxOutput.sidOf tx.txid asset.symbol denom index
    txid := tx.txid
    index := index
    address := p.address
    amount := p.amount
    coin := asset.coin denom
    blockHeight := tx.height
    blockHash := blockHash
    memo := tx.memo }

/-- One input record per sender of a group, in order. -/
def inputs (asset : ChainAsset) (tx : Transaction) (blockHash : String) (g : TransferGroup) :
    List TxInput :=
  g.senders.zipIdx.map fun (p, i) => asset.input tx g.denom blockHash (UInt64.ofNat i) p

/-- One output record per receiver of a group, in order. -/
def outputs (asset : ChainAsset) (tx : Transaction) (blockHash : String) (g : TransferGroup) :
    List TxOutput :=
  g.receivers.zipIdx.map fun (p, i) => asset.output tx g.denom blockHash (UInt64.ofNat i) p

/-- The summary of a group. -/
def summary (asset : ChainAsset) (tx : Transaction) (blockHash : String) (g : TransferGroup) :
    TransactionSummary :=
  TransactionSummary.withWxId
    { wxId := ""
      txid := tx.txid
      senders := g.senders.map Party.pair
      receivers := g.receivers.map Party.pair
      amount := none
      fees := 0
      coin := asset.coin g.denom
      blockHeight := tx.height
      blockHash := blockHash
      status := .success
      memo := tx.memo
      txType := .transfer }

/-- The input record of a fee paid by the given sender. -/
def feeInput (asset : ChainAsset) (tx : Transaction) (blockHash : String) (fee : UInt64)
    (payer : Party) : TxInput :=
  { asset.input tx asset.nativeDenom blockHash 0 ⟨payer.address, fee⟩ with txType := .feeCharge }

/-- The summary of a fee paid by the given sender. -/
def feeSummary (asset : ChainAsset) (tx : Transaction) (blockHash : String) (fee : UInt64)
    (payer : Party) : TransactionSummary :=
  TransactionSummary.withWxId
    { wxId := ""
      txid := tx.txid
      senders := [Party.pair ⟨payer.address, fee⟩]
      receivers := [""]
      amount := some fee
      fees := 0
      coin := asset.coin asset.nativeDenom
      blockHeight := tx.height
      blockHash := blockHash
      status := .success
      memo := tx.memo
      txType := .feeCharge }

end ChainAsset

/-- What was attributed so far, and whether the fee was. -/
structure Attribution where
  data : OwnerBook ExtractedData
  feeCharged : Bool
deriving DecidableEq, Repr

/-- The data of an owner, empty if there is none yet. -/
def dataOrEmpty (d : Option ExtractedData) : ExtractedData := d.getD .empty

/-- Charges the fee to a source; the record names the first sender of the group. -/
def chargeFee (asset : ChainAsset) (tx : Transaction) (blockHash : String) (fee : UInt64)
    (g : TransferGroup) (source : String) (data : OwnerBook ExtractedData) :
    OwnerBook ExtractedData :=
  data.update ⟨.fee, source⟩ fun d =>
    let d := dataOrEmpty d
    match g.senders.head? with
    | none => d
    | some payer =>
      { d with
        inputs := d.inputs ++ [asset.feeInput tx blockHash fee payer]
        transaction := some (asset.feeSummary tx blockHash fee payer) }

/-- Attributes the senders of a group, and the fee if it was not charged before. -/
def attributeSenders (asset : ChainAsset) (owners : Owners) (blockHash : String)
    (fee : Option UInt64) (tx : Transaction) (g : TransferGroup) (a : Attribution) : Attribution :=
  match firstOwner owners g.senders with
  | none => a
  | some source =>
    let data := a.data.update ⟨.asset g.denom, source⟩ fun d =>
      let d := dataOrEmpty d
      { d with
        inputs := d.inputs ++ asset.inputs tx blockHash g
        transaction := some (asset.summary tx blockHash g) }
    if a.feeCharged then { a with data := data }
    else
      match fee with
      | none => ⟨data, true⟩
      | some fee => ⟨chargeFee asset tx blockHash fee g source data, true⟩

/-- Attributes the receivers of a group. -/
def attributeReceivers (asset : ChainAsset) (owners : Owners) (blockHash : String)
    (tx : Transaction) (g : TransferGroup) (a : Attribution) : Attribution :=
  match firstOwner owners g.receivers with
  | none => a
  | some source =>
    { a with
      data := a.data.update ⟨.asset g.denom, source⟩ fun d =>
        let d := dataOrEmpty d
        { d with
          outputs := d.outputs ++ asset.outputs tx blockHash g
          transaction := d.transaction.or (some (asset.summary tx blockHash g)) } }

/-- The records of a transaction by owner. A fee record arises only if a fee is given and a sender
is owned; a transaction that touches no owned address yields nothing. -/
def classify (asset : ChainAsset) (owners : Owners) (blockHash : String) (fee : Option UInt64)
    (tx : Transaction) : OwnerMap ExtractedData :=
  (tx.groups.foldl
    (fun a g =>
      attributeReceivers asset owners blockHash tx g
        (attributeSenders asset owners blockHash fee tx g a))
    ⟨.empty, false⟩).data.rows

end WalletScan
