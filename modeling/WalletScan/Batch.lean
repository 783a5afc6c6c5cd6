import WalletScan.Script

/-!
# Extracting a batch of transactions

A batch lists the transactions of one block, or of the mempool. Each is fetched and classified;
then, one after the other, each result is delivered to every sink. A transaction whose extraction or
delivery fails leaves one unscanned record with its first failure, and the others go on. A batch
stops early only if such a record cannot be saved.

Transactions whose worker died come last, after all that answered. The queue through which results
come from the workers to the consumer (`WalletScan.Handoff`) keeps their order, so a list of results
stands for it here.

Specification: section 4.2 (`ExtractionPipeline`, `extract`).
-/

set_option autoImplicit false

namespace WalletScan

/-- The transactions of a block, or of the mempool at height zero. -/
structure Batch where
  height : UInt64
  blockHash : String
  txids : List String
  isMempool : Bool
deriving DecidableEq, Repr

/-- The batch of a block. -/
def Batch.block (height : UInt64) (blockHash : String) (txids : List String) : Batch :=
  ⟨height, blockHash, txids, false⟩

/-- The batch of the mempool. -/
def Batch.mempool (txids : List String) : Batch := ⟨0, "", txids, true⟩

/-- What a batch delivered. -/
structure BatchSummary where
  total : Nat
  /-- Owners whose data every sink took. -/
  delivered : Nat
deriving DecidableEq, Repr

/-- What became of one transaction. -/
structure Extraction where
  txid : String
  height : UInt64
  /-- The records by owner, or why there are none. -/
  outcome : Except String (OwnerMap ExtractedData)
  /-- The last words of a worker that died. -/
  crash : Option String

/-- Who classifies: the chain's asset and the owners of addresses. -/
structure Classifier where
  asset : ChainAsset
  owners : Owners

/-- Looks a transaction up: in the mempool first if asked, and then among the committed ones. -/
def lookUp (txid : String) (isMempool : Bool) : Script Lookup :=
  if isMempool then do
    match ← Script.chain (.mempoolTransaction txid) with
    | .ok tx => return .found tx
    | .error _ => Script.chain (.transaction txid)
  else Script.chain (.transaction txid)

/-- The fee of a transaction, if an owned sender pays it. -/
def lookUpFee (owners : Owners) (tx : Transaction) : Script (Except ChainError (Option UInt64)) :=
  match feePayer owners tx with
  | none => return .ok none
  | some _ => do
    match ← Script.chain (.fee tx.feeKind tx.height) with
    | .ok fee => return .ok (some fee)
    | .error cause => return .error cause

/-- A transaction that waits in the mempool counts as one of the given height. -/
def Transaction.atHeight (height : UInt64) (tx : Transaction) : Transaction :=
  if tx.height = 0 then { tx with height := height } else tx

/-- Fetches and classifies one transaction. -/
def extractOne (c : Classifier) (height : UInt64) (blockHash : String) (isMempool : Bool)
    (txid : String) : Script Extraction := do
  match ← lookUp txid isMempool with
  | .failed cause => return ⟨txid, height, .error cause.message, none⟩
  | .crashed detail => return ⟨txid, height, .error (crashReason detail), some detail⟩
  | .found tx =>
    let tx := tx.atHeight height
    match ← lookUpFee c.owners tx with
    | .error cause => return ⟨txid, height, .error (feeReason cause), none⟩
    | .ok fee => return ⟨txid, tx.height, .ok (classify c.asset c.owners blockHash fee tx), none⟩

/-- Fetches and classifies every transaction of a list, in order. -/
def extractAll (c : Classifier) (b : Batch) : List String → Script (List Extraction)
  | [] => return []
  | txid :: rest => do
    let first ← extractOne c b.height b.blockHash b.isMempool txid
    let others ← extractAll c b rest
    return first :: others

/-- Results in the order of delivery: those of workers that died come last. -/
def deliveryOrder (results : List Extraction) : List Extraction :=
  results.filter (fun e => e.crash.isNone) ++ results.filter (fun e => e.crash.isSome)

/-- Offers an owner's data to every sink, and answers the first refusal. -/
def offer (owner : OwnerKey) (data : ExtractedData) : List Nat → Script (Option NotifyError)
  | [] => return none
  | sink :: rest => do
    let answer ← Script.query (.deliver sink owner data)
    let later ← offer owner data rest
    match answer with
    | .ok () => return later
    | .error cause => return some cause

/-- Delivers the data of every owner: how many owners' data every sink took, and the first failure.
A refusal holds back neither the other sinks nor the other owners. -/
def deliver (sinks : Nat) : OwnerMap ExtractedData → Script (Nat × Option String)
  | [] => return (0, none)
  | (owner, data) :: rest => do
    let refusal ← offer owner data (List.range sinks)
    let (delivered, failure) ← deliver sinks rest
    match refusal with
    | none => return (delivered + 1, failure)
    | some cause => return (delivered, some (deliveryReason owner.render cause))

/-- Delivers one result: how many owners' data were taken, and why the transaction failed, if it
did. -/
def settle (sinks : Nat) (e : Extraction) : Script (Nat × Option String) :=
  match e.outcome with
  | .error reason => return (0, some reason)
  | .ok data => deliver sinks data

/-- Delivers results one after the other and records those that fail. The answer counts the
deliveries and lists the failed transactions; it is an error as soon as a record cannot be saved. -/
def settleAll (sinks : Nat) (height : UInt64) :
    List Extraction → Script (Except LedgerError (Nat × List String))
  | [] => return .ok (0, [])
  | e :: rest => do
    let (delivered, failure) ← settle sinks e
    match failure with
    | none =>
      match ← settleAll sinks height rest with
      | .ok (others, failed) => return .ok (delivered + others, failed)
      | .error cause => return .error cause
    | some reason =>
      match ← Script.query (.ledger (.saveUnscanned (.of height e.txid reason))) with
      | .error cause => return .error cause
      | .ok () =>
        match ← settleAll sinks height rest with
        | .ok (others, failed) => return .ok (delivered + others, e.txid :: failed)
        | .error cause => return .error cause

/-- Extracts and delivers every transaction of a batch. -/
def extractBatch (c : Classifier) (sinks : Nat) (b : Batch) :
    Script (Except BatchError BatchSummary) :=
  if b.txids.isEmpty then return .ok ⟨0, 0⟩
  else do
    let results ← extractAll c b b.txids
    match ← settleAll sinks b.height (deliveryOrder results) with
    | .error cause => return .error (.ledger cause)
    | .ok (delivered, []) => return .ok ⟨b.txids.length, delivered⟩
    | .ok (_, failed) => return .error (.incomplete b.height failed b.txids.length)

end WalletScan
