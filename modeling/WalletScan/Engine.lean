import WalletScan.Batch
import WalletScan.Amount
import WalletScan.Wire.Records

/-!
# The scan engine

An engine walks a chain of blocks upwards from its cursor. The operations on single blocks and
transactions are here; a whole cycle is in `WalletScan.Cycle`.

* `Engine.accept` — a block is extracted first, then the cursor moves, then the block is cached and
  announced: the cursor never stands on a block that was not dealt with.
* `Engine.rewind` — the cursor steps back by one block, to the cached ancestor or to the one that
  the chain serves.

Specification: section 4.1 (`ScanEngine`), and section 11 for what a caller may ask for besides a
cycle (`set_rescan_height`, `scan_block`, `current_block_header`, `scanned_block_header`,
`extract_transaction_data`, `transactions_by_address`, `balances_by_address`).
-/

set_option autoImplicit false

namespace WalletScan

/-- What can be tuned on an engine. -/
structure EngineConfig where
  /-- How many transactions may be looked up at a time. -/
  maxConcurrent : UInt64
  /-- How many blocks below the cursor are extracted again after a cycle. -/
  rescanCount : UInt64
  /-- Whether pending transactions are extracted after a cycle. -/
  scanMempool : Bool
deriving DecidableEq, Repr

/-- The tuning that is assumed when none is given. -/
def EngineConfig.default : EngineConfig := ⟨20, 1, false⟩

/-- The lowest height that a rewind may reach. -/
def minRewindHeight : UInt64 := 1

/-- An engine: what it classifies with, how many sinks take its data, and its tuning. -/
structure Engine where
  classifier : Classifier
  sinks : Nat
  config : EngineConfig

namespace Engine

/-- Extracts a batch and answers the transactions that failed; they are recorded already. -/
def runBatch (e : Engine) (b : Batch) : Script (List String) := do
  match ← extractBatch e.classifier e.sinks b with
  | .ok _ => return []
  | .error (.incomplete _ failed _) => return failed
  | .error (.ledger cause) => Script.fail (.ledger cause)

/-- The hash of the block that the chain serves at a height. -/
def chainHash (height : UInt64) : Script (Except ChainError String) := do
  match ← Script.chain (.block height) with
  | .ok b => return .ok b.hash
  | .error cause => return .error cause

/-- The hash of a block: from the cache, else from the chain, else empty. -/
def resolveHash (height : UInt64) : Script String :=
  if height = 0 then return ""
  else do
    match ← Script.store (.getBlock height) with
    | some b => return b.hash
    | none =>
      match ← chainHash height with
      | .ok hash => return hash
      | .error _ => return ""

/-- Where scanning goes on: the persisted cursor, or just below the tip if there is none. -/
def start : Script (Except ChainError Cursor) := do
  match (← Script.store .getCursor).filter fun c => !c.isEmpty with
  | some c => return .ok c
  | none =>
    match ← Script.chain .tip with
    | .error cause => return .error cause
    | .ok tip =>
      let height := lowered tip 1
      if height = 0 then return .ok ⟨0, ""⟩
      else
        match ← chainHash height with
        | .error cause => return .error cause
        | .ok hash => return .ok ⟨height, hash⟩

/-- Where scanning goes on; an error of the chain source halts. -/
def scannedHeader : Script Cursor := do Script.demand (← start)

/-- Accepts a block: extracts it, moves the cursor, caches the block and announces it. -/
def accept (e : Engine) (b : Block) : Script Unit := do
  let _ ← e.runBatch (.block b.height b.hash b.transactions)
  Script.store (.setCursor b.header.cursor)
  Script.store (.putBlock b)
  Script.announce b.header false

/-- The block below an abandoned one: from the cache unless the rewind is clamped, in which case
the cached block is the abandoned one; else from the chain, and then it is cached. -/
def ancestor (abandoned target : UInt64) : Script (Option Block) := do
  let cached ← if target = abandoned then pure none else Script.store (.getBlock target)
  match cached with
  | some b => return some b
  | none =>
    match ← Script.chain (.block target) with
    | .error _ => return none
    | .ok b =>
      Script.store (.putBlock b)
      return some b

/-- Steps the cursor back by one block, or answers nothing if the ancestor cannot be fetched. The
observers only hear of an abandoned block that was cached. -/
def rewind (cursor : Cursor) : Script (Option Cursor) := do
  let _ ← Script.store (.deleteUnscanned cursor.height)
  let target := max (lowered cursor.height 1) minRewindHeight
  let abandoned ← Script.store (.getBlock cursor.height)
  match ← ancestor cursor.height target with
  | none => return none
  | some b =>
    let rewound := b.header.cursor
    Script.store (.setCursor rewound)
    match abandoned with
    | some b => Script.announce b.header true
    | none => pure ()
    Script.report (.forkDetected cursor.height rewound.height)
    return some rewound

/-- Records a block that could not be fetched. -/
def recordBlock (height : UInt64) (cause : ChainError) : Script Unit :=
  Script.store (.saveUnscanned (.of height "" cause.message))

/-- Extracts one block again, whether or not it was extracted before. -/
def rescanBlock (e : Engine) (height : UInt64) : Script Unit := do
  match ← Script.chain (.block height) with
  | .ok b =>
    let _ ← e.runBatch (.block height b.hash b.transactions)
    return ()
  | .error cause => recordBlock height cause

/-- Extracts the pending transactions, if they can be listed. -/
def scanMempool (e : Engine) : Script Unit := do
  match ← Script.chain .mempool with
  | .ok txids =>
    let _ ← e.runBatch (.mempool txids)
    return ()
  | .error _ => return ()

/-! ## Operations on behalf of a caller -/

/-- Moves the cursor so that the next cycle starts at a height. -/
def setRescanHeight (height : UInt64) : Script Cursor :=
  if height ≤ minRewindHeight then Script.fail (.invalidHeight height)
  else do
    let target := height - 1
    let cursor : Cursor := ⟨target, ← Script.demand (← chainHash target)⟩
    Script.store (.setCursor cursor)
    let _ ← Script.store (.deleteBlocksAbove target)
    return cursor

/-- Extracts one block without moving the cursor; a block that cannot be fetched is recorded. -/
def scanBlock (e : Engine) (height : UInt64) : Script BlockHeader := do
  match ← Script.chain (.block height) with
  | .error cause =>
    recordBlock height cause
    Script.fail (.chain cause)
  | .ok b =>
    let _ ← e.runBatch (.block height b.hash b.transactions)
    Script.announce b.header false
    return b.header

/-- The header of the chain's current best block. -/
def currentHeader : Script BlockHeader := do
  let tip ← Script.demand (← Script.chain .tip)
  let b ← Script.demand (← Script.chain (.block tip))
  return b.header

/-- The records of one transaction by owner; nothing is delivered. -/
def extractTransaction (c : Classifier) (txid : String) :
    Script (OwnerMap (List ExtractedData)) := do
  let e ← extractOne c 0 "" false txid
  match e.crash, e.outcome with
  | some detail, _ => .halt (.crashed detail)
  | none, .error reason => Script.fail (.extraction txid reason)
  | none, .ok data =>
    let hash ← resolveHash e.height
    return data.map fun (owner, d) => (owner, [d.withBlockHash hash])

/-- The owners when the wallet owns exactly the given addresses, each as its own source. -/
def ownersOf (addresses : List String) : Owners := fun address =>
  if addresses.contains address then some address else none

/-- Appends each owner's data to what the owner has already. -/
def appendData (data : OwnerMap ExtractedData) (all : OwnerBook (List ExtractedData)) :
    OwnerBook (List ExtractedData) :=
  data.foldl (fun all (owner, d) => all.update owner fun ds => ds.getD [] ++ [d]) all

/-- What the history of addresses amounts to so far. -/
structure History where
  seen : List String
  data : OwnerBook (List ExtractedData)

/-- Adds the transactions of a list that were not seen before. -/
def addHistory (c : Classifier) : List Transaction → History → Script History
  | [], h => return h
  | tx :: rest, h =>
    if h.seen.contains tx.txid then addHistory c rest h
    else do
      let fee ← Script.demand (← lookUpFee c.owners tx)
      let hash ← resolveHash tx.height
      let data := classify c.asset c.owners hash fee tx
      addHistory c rest ⟨tx.txid :: h.seen, appendData data h.data⟩

/-- Adds the histories of addresses one after the other. -/
def addHistories (c : Classifier) : List String → History → Script History
  | [], h => return h
  | address :: rest, h => do
    let txs ← Script.demand (← Script.chain (.history address))
    addHistories c rest (← addHistory c txs h)

/-- The histories of addresses, as if the wallet owned exactly these. -/
def addressHistory (asset : ChainAsset) (addresses : List String) :
    Script (OwnerMap (List ExtractedData)) := do
  return (← addHistories ⟨asset, ownersOf addresses⟩ addresses ⟨[], .empty⟩).data.rows

/-- The balances of addresses in the native asset. -/
def balances (asset : ChainAsset) : List String → Script (List Balance)
  | [] => return []
  | address :: rest => do
    let amount ← Script.demand (← Script.chain (.balance address asset.nativeDenom))
    let others ← balances asset rest
    return ⟨address, asset.symbol, Amount.render amount asset.decimals⟩ :: others

end Engine

end WalletScan
