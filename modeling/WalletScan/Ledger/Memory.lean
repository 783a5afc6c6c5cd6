import WalletScan.Ledger.Basic
import WalletScan.Table

/-!
# The ledger in memory

Blocks are cached under their height and never pruned; records are kept under their identifier.
Every save gives a record the next sequence number, and listings are ordered by height and then by
the time of the last save.

Specification: section 6, in its implementation `MemoryScanLedger`.
-/

set_option autoImplicit false

namespace WalletScan

/-- A ledger that lives as long as the process. -/
structure MemoryLedger where
  cursor : Option Cursor
  blocks : Index UInt64 Block
  unscanned : Index String UnscannedRecord
  /-- When each record was saved last. -/
  sequence : Index String Nat
  /-- How many records were saved so far. The count has no bound; a counter of 64 bits agrees with it
  as long as fewer than `2 ^ 64` records were saved. -/
  nextSequence : Nat
deriving DecidableEq, Repr

namespace MemoryLedger

/-- The ledger before the first operation. -/
def empty : MemoryLedger := ⟨none, .empty, .empty, .empty, 0⟩

/-- Moves the cursor. -/
def setCursor (c : Cursor) (l : MemoryLedger) : MemoryLedger := { l with cursor := some c }

/-- The block cached at a height. -/
def getBlock (height : UInt64) (l : MemoryLedger) : Option Block := l.blocks.find? height

/-- Caches a block. -/
def putBlock (b : Block) (l : MemoryLedger) : MemoryLedger :=
  { l with blocks := l.blocks.insert b.height b }

/-- Drops the blocks above a height. -/
def deleteBlocksAbove (height : UInt64) (l : MemoryLedger) : Nat × MemoryLedger :=
  let kept := l.blocks.keep fun h _ => decide (h ≤ height)
  (l.blocks.size - kept.size, { l with blocks := kept })

/-- When a record was saved last; one that never was comes after all others. -/
def savedAt (l : MemoryLedger) (id : String) : Nat := (l.sequence.find? id).getD l.nextSequence

/-- Whether a record is listed no later than another. -/
def listedBefore (l : MemoryLedger) (a b : UnscannedRecord) : Bool :=
  decide (a.height < b.height)
    || (a.height == b.height && decide (l.savedAt a.id ≤ l.savedAt b.id))

/-- Records in the order of listings. -/
def sorted (l : MemoryLedger) (records : List UnscannedRecord) : List UnscannedRecord :=
  records.mergeSort l.listedBefore

/-- Every record. -/
def listUnscanned (l : MemoryLedger) : List UnscannedRecord := l.sorted l.unscanned.values

/-- The records of a height. -/
def listUnscannedAt (height : UInt64) (l : MemoryLedger) : List UnscannedRecord :=
  l.sorted (l.unscanned.values.filter fun r => r.height == height)

/-- Saves a record in place of the one with its identifier. -/
def saveUnscanned (r : UnscannedRecord) (l : MemoryLedger) : MemoryLedger :=
  { l with
    unscanned := l.unscanned.insert r.id r
    sequence := l.sequence.insert r.id l.nextSequence
    nextSequence := l.nextSequence + 1 }

/-- Keeps the records that pass a test, and the sequence numbers of what is kept. -/
def keepUnscanned (test : UnscannedRecord → Bool) (l : MemoryLedger) : Nat × MemoryLedger :=
  let kept := l.unscanned.keep fun _ r => test r
  (l.unscanned.size - kept.size,
    { l with unscanned := kept, sequence := l.sequence.keep fun id _ => kept.has id })

/-- Deletes the records of a height. -/
def deleteUnscanned (height : UInt64) (l : MemoryLedger) : Nat × MemoryLedger :=
  l.keepUnscanned fun r => r.height != height

/-- Deletes the record under the identifier of a transaction at a height. -/
def deleteUnscannedRecord (height : UInt64) (txid : String) (l : MemoryLedger) :
    Nat × MemoryLedger :=
  let id := UnscannedRecord.idOf height txid
  ((if l.unscanned.has id then 1 else 0),
    { l with unscanned := l.unscanned.erase id, sequence := l.sequence.erase id })

/-- Deletes the records whose reason begins with a text. -/
def deleteUnscannedByReason (lead : String) (l : MemoryLedger) : Nat × MemoryLedger :=
  l.keepUnscanned fun r => !beginsWith lead r.reason

/-- Performs an operation; it always succeeds. -/
def perform : (op : LedgerOp) → MemoryLedger → op.Answer × MemoryLedger
  | .getCursor, l => (l.cursor, l)
  | .setCursor c, l => ((), l.setCursor c)
  | .getBlock h, l => (l.getBlock h, l)
  | .putBlock b, l => ((), l.putBlock b)
  | .deleteBlocksAbove h, l => l.deleteBlocksAbove h
  | .listUnscanned, l => (l.listUnscanned, l)
  | .listUnscannedAt h, l => (l.listUnscannedAt h, l)
  | .saveUnscanned r, l => ((), l.saveUnscanned r)
  | .deleteUnscanned h, l => l.deleteUnscanned h
  | .deleteUnscannedRecord h txid, l => l.deleteUnscannedRecord h txid
  | .deleteUnscannedByReason lead, l => l.deleteUnscannedByReason lead

end MemoryLedger

end WalletScan
