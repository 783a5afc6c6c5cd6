import WalletScan.Engine

/-!
# A scan cycle

A cycle advances block by block until the cursor reaches the tip, rewinds where a block does not
extend the scanned chain, and then drains: the latest blocks and, if asked, the mempool are
extracted again, and the unscanned records are tried again.

* `Engine.advanceOnce` — one iteration: the task is asked first, so a pause takes effect between
  blocks and never inside a batch.
* `Engine.advance` — at most the given number of iterations. A chain that contradicts itself can
  make the cursor move up and down for ever; the bound then ends the script as `Halt.exhausted`.
* `Engine.retry` — the retry pass, height by height.

Specification: sections 4.1 (`run_scan_cycle`) and 4.3 (`rescan_failed`).
-/

set_option autoImplicit false

namespace WalletScan

/-- What a cycle did. -/
structure CycleReport where
  startHeight : UInt64
  finalHeight : UInt64
  blocksScanned : Nat
  /-- Rewind steps taken, one per abandoned block. -/
  forks : Nat
  /-- Heights extracted again by the retry pass. -/
  retriedHeights : Nat
  /-- Records of unknown transactions that the retry pass deleted. -/
  purgedRecords : Nat
  /-- Whether the task was paused or stopped before the cycle was over. -/
  interrupted : Bool
deriving DecidableEq, Repr

/-- The report of a cycle that found no place to start. -/
def CycleReport.skipped : CycleReport := ⟨0, 0, 0, 0, 0, 0, false⟩

namespace Engine

/-- Where an advance stands. -/
structure Progress where
  cursor : Cursor
  blocks : Nat
  forks : Nat
deriving DecidableEq, Repr

/-- How an iteration ends. -/
inductive Iteration where
  /-- The cursor moved. -/
  | moved (p : Progress)
  /-- The tip is reached, or the chain source has no answer. -/
  | settled
  | interrupted (reason : PauseReason)
deriving DecidableEq, Repr

/-- Goes on from a fetched block: rewinds if it does not extend the scanned chain, and accepts it
otherwise. A cursor at height zero has no scanned block to compare with. -/
def advanceOver (e : Engine) (p : Progress) (b : Block) : Script Iteration :=
  if 0 < p.cursor.height ∧ b.header.previousHash ≠ p.cursor.hash then do
    match ← rewind p.cursor with
    | some rewound => return .moved { p with cursor := rewound, forks := p.forks + 1 }
    | none => return .settled
  else do
    e.accept b
    let cursor := b.header.cursor
    Script.report (.progress cursor.height (p.blocks + 1))
    return .moved { p with cursor := cursor, blocks := p.blocks + 1 }

/-- One iteration of an advance. -/
def advanceOnce (e : Engine) (p : Progress) : Script Iteration := do
  match ← Script.query .taskState with
  | .stopped => return .interrupted .stopped
  | .idle => return .interrupted .paused
  | .paused => return .interrupted .paused
  | .running =>
    match ← Script.chain .tip with
    | .error _ => return .settled
    | .ok tip =>
      if tip ≤ p.cursor.height then return .settled
      else
        match ← Script.chain (.block (p.cursor.height + 1)) with
        | .error _ => return .settled
        | .ok b => e.advanceOver p b

/-- Advances for at most the given number of iterations; answers where it stands, and why it was
interrupted, if it was. -/
def advance (e : Engine) : Nat → Progress → Script (Progress × Option PauseReason)
  | 0, _ => .halt .exhausted
  | fuel + 1, p => do
    match ← e.advanceOnce p with
    | .moved p => e.advance fuel p
    | .settled => return (p, none)
    | .interrupted reason => return (p, some reason)

/-- The heights below a cursor that are extracted again after a cycle. -/
def rescanHeights (cursor : Cursor) (count : UInt64) : List UInt64 :=
  let first := lowered cursor.height count
  ((List.range (cursor.height - first).toNat).map fun i => first + UInt64.ofNat i).filter
    fun h => h != 0

/-- Extracts blocks again, one after the other. -/
def rescanBlocks (e : Engine) : List UInt64 → Script Unit
  | [] => return ()
  | height :: rest => do
    e.rescanBlock height
    e.rescanBlocks rest

/-! ## The retry pass -/

/-- Records of one height each, by height, in the order in which they were listed. -/
abbrev HeightGroups := List (UInt64 × List UnscannedRecord)

/-- Adds a record to the group of its height. -/
def addToGroup (r : UnscannedRecord) : HeightGroups → HeightGroups
  | [] => [(r.height, [r])]
  | (h, rs) :: rest =>
    if r.height < h then (r.height, [r]) :: (h, rs) :: rest
    else if r.height = h then (h, rs ++ [r]) :: rest
    else (h, rs) :: addToGroup r rest

/-- Groups records by height. -/
def groupByHeight (records : List UnscannedRecord) : HeightGroups :=
  records.foldl (fun groups r => addToGroup r groups) []

/-- The batch that tries the records of a height again: the whole block if a record asks for it, or
the recorded transactions. There is none if the block cannot be fetched. -/
def retryBatch (height : UInt64) (records : List UnscannedRecord) : Script (Option Batch) :=
  if records.any UnscannedRecord.isBlockLevel then do
    match ← Script.chain (.block height) with
    | .ok b => return some (.block height b.hash b.transactions)
    | .error _ => return none
  else do
    let hash ← resolveHash height
    return some (.block height hash (records.map (·.txid)))

/-- Deletes the records of a height whose transaction no longer fails. -/
def dropSettled (height : UInt64) (failing : List String) : List UnscannedRecord → Script Unit
  | [] => return ()
  | r :: rest => do
    if failing.contains r.txid then dropSettled height failing rest
    else do
      let _ ← Script.store (.deleteUnscannedRecord height r.txid)
      dropSettled height failing rest

/-- Tries the records of one height again; answers whether a batch was run. Records at height zero
stem from the mempool and are dropped. -/
def retryHeight (e : Engine) (height : UInt64) (records : List UnscannedRecord) : Script Bool :=
  if height = 0 then do
    let _ ← Script.store (.deleteUnscanned 0)
    return false
  else do
    match ← retryBatch height records with
    | none => return false
    | some batch =>
      let failing ← e.runBatch batch
      dropSettled height failing records
      return true

/-- Tries the records of each height again; answers how many heights were tried. -/
def retryHeights (e : Engine) : HeightGroups → Script Nat
  | [] => return 0
  | (height, records) :: rest => do
    let tried ← e.retryHeight height records
    let others ← e.retryHeights rest
    return if tried then others + 1 else others

/-- The retry pass: the heights tried again, and the records deleted because the chain does not know
their transaction. -/
def retry (e : Engine) : Script (Nat × Nat) := do
  let purged ← Script.store (.deleteUnscannedByReason unknownTransactionLead)
  let records ← Script.store .listUnscanned
  let retried ← e.retryHeights (groupByHeight records)
  return (retried, purged)

/-! ## The whole cycle -/

/-- What follows an advance that was not interrupted. -/
def drain (e : Engine) (cursor : Cursor) : Script (Nat × Nat) := do
  e.rescanBlocks (rescanHeights cursor e.config.rescanCount)
  if e.config.scanMempool then e.scanMempool
  e.retry

/-- A cycle from a known cursor. -/
def cycleFrom (e : Engine) (fuel : Nat) (start : Cursor) : Script CycleReport := do
  Script.report (.started start.height)
  let (p, interruption) ← e.advance fuel ⟨start, 0, 0⟩
  let report : CycleReport :=
    { CycleReport.skipped with
      startHeight := start.height
      finalHeight := p.cursor.height
      blocksScanned := p.blocks
      forks := p.forks }
  match interruption with
  | some reason =>
    Script.report (.paused p.cursor.height reason)
    return { report with interrupted := true }
  | none =>
    Script.report (.completed p.cursor.height p.blocks)
    let (retried, purged) ← e.drain p.cursor
    return { report with retriedHeights := retried, purgedRecords := purged }

/-- A cycle. It is skipped if the chain source cannot tell where to start. -/
def cycle (e : Engine) (fuel : Nat) : Script CycleReport := do
  match ← start with
  | .error _ => return .skipped
  | .ok cursor => e.cycleFrom fuel cursor

end Engine

end WalletScan
