import WalletScan.Ledger.Memory
import WalletScan.Wire.Records

/-!
# The ledger in a database

Three tables of rows hold the cursor, the cached blocks and the unscanned records. A row keeps its
height and its time as signed numbers of 64 bits, so heights from `2 ^ 63` on compare as negative;
they are read back as they were written. The transaction identifiers of a block are one text, a JSON
array. Caching a block prunes the blocks more than `cacheDepth` heights below it. The rows do not
hold when they were written: the second in which a record was saved would only order the records of
one height, which come by their identifiers here.

`Ledger` is a ledger of either kind, in memory or in a database.

Specification: section 10.4 (the tables `scan_cursor`, `blocks` and `unscanned_records`).
-/

set_option autoImplicit false

namespace WalletScan

/-- A row of the table of blocks. -/
structure BlockRow where
  height : Int64
  hash : String
  previousHash : String
  timestamp : Int64
  /-- The transaction identifiers as a JSON array of texts. -/
  transactions : String
deriving DecidableEq, Repr

/-- A row of the table of unscanned records, without the second in which it was saved. -/
structure RecordRow where
  id : String
  height : Int64
  txid : String
  reason : String
deriving DecidableEq, Repr

/-- The row of a record. -/
def RecordRow.ofRecord (r : UnscannedRecord) : RecordRow :=
  ⟨r.id, r.height.toInt64, r.txid, r.reason⟩

/-- The record of a row. -/
def RecordRow.record (row : RecordRow) : UnscannedRecord :=
  ⟨row.id, row.height.toUInt64, row.txid, row.reason⟩

/-- The row of a block. -/
def BlockRow.ofBlock (b : Block) : BlockRow :=
  ⟨b.height.toInt64, b.hash, b.header.previousHash, b.header.timestamp.toInt64,
    Wire.encode b.transactions⟩

/-- The block of a row, unless its identifiers cannot be read. -/
def BlockRow.block (row : BlockRow) : Except LedgerError Block :=
  match Wire.decode (α := List String) row.transactions with
  | .ok transactions =>
    .ok ⟨⟨row.hash, row.previousHash, row.height.toUInt64, row.timestamp.toUInt64⟩, transactions⟩
  | .error _ => .error .unreadable

/-- A ledger whose tables outlive the process. -/
structure RowLedger where
  cursor : Option (Int64 × String)
  blocks : List BlockRow
  unscanned : List RecordRow
deriving DecidableEq, Repr

namespace RowLedger

/-- The tables before the first operation. -/
def empty : RowLedger := ⟨none, [], []⟩

/-- How many heights below the latest block stay cached. -/
def cacheDepth : UInt64 := 1000

/-- The cursor. -/
def getCursor (l : RowLedger) : Option Cursor :=
  l.cursor.map fun (height, hash) => ⟨height.toUInt64, hash⟩

/-- Moves the cursor. -/
def setCursor (c : Cursor) (l : RowLedger) : RowLedger :=
  { l with cursor := some (c.height.toInt64, c.hash) }

/-- Forgets the cursor. -/
def clearCursor (l : RowLedger) : RowLedger := { l with cursor := none }

/-- The block cached at a height. -/
def getBlock (height : UInt64) (l : RowLedger) : Except LedgerError (Option Block) :=
  match l.blocks.find? fun row => row.height == height.toInt64 with
  | none => .ok none
  | some row => row.block.map some

/-- Writes a block's row in place of the one at its height. -/
def upsertBlock (b : Block) (l : RowLedger) : RowLedger :=
  { l with
    blocks := BlockRow.ofBlock b :: l.blocks.filter fun row => row.height != b.height.toInt64 }

/-- Keeps the block rows that pass a test. -/
def keepBlocks (test : BlockRow → Bool) (l : RowLedger) : Nat × RowLedger :=
  let kept := l.blocks.filter test
  (l.blocks.length - kept.length, { l with blocks := kept })

/-- Drops the blocks below a height, by signed comparison. -/
def pruneBlocksBelow (height : UInt64) (l : RowLedger) : Nat × RowLedger :=
  l.keepBlocks fun row => !decide (row.height < height.toInt64)

/-- Caches a block and prunes the cache. -/
def putBlock (b : Block) (l : RowLedger) : RowLedger :=
  ((l.upsertBlock b).pruneBlocksBelow (lowered b.height cacheDepth)).2

/-- Drops the blocks above a height, by signed comparison. -/
def deleteBlocksAbove (height : UInt64) (l : RowLedger) : Nat × RowLedger :=
  l.keepBlocks fun row => !decide (height.toInt64 < row.height)

/-- Overwrites the stored identifiers of the block at a height; answers how many rows changed. -/
def overwriteTransactions (height : UInt64) (text : String) (l : RowLedger) : Nat × RowLedger :=
  ((l.blocks.filter fun row => row.height == height.toInt64).length,
    { l with
      blocks := l.blocks.map fun row =>
        if row.height = height.toInt64 then { row with transactions := text } else row })

/-- Whether a row is listed no later than another: by signed height, then by identifier. The
database compares the second of the last save in between, which no operation is told; at one height
this is the order of rows that were saved in the same second. -/
def listedBefore (a b : RecordRow) : Bool :=
  decide (a.height < b.height) || (a.height == b.height && decide (a.id ≤ b.id))

/-- Every record. -/
def listUnscanned (l : RowLedger) : List UnscannedRecord :=
  (l.unscanned.mergeSort listedBefore).map RecordRow.record

/-- The records of a height. -/
def listUnscannedAt (height : UInt64) (l : RowLedger) : List UnscannedRecord :=
  ((l.unscanned.filter fun row => row.height == height.toInt64).mergeSort listedBefore).map
    RecordRow.record

/-- Writes a record's row in place of the one with its identifier. -/
def saveUnscanned (r : UnscannedRecord) (l : RowLedger) : RowLedger :=
  { l with unscanned := RecordRow.ofRecord r :: l.unscanned.filter fun row => row.id != r.id }

/-- Keeps the record rows that pass a test. -/
def keepUnscanned (test : RecordRow → Bool) (l : RowLedger) : Nat × RowLedger :=
  let kept := l.unscanned.filter test
  (l.unscanned.length - kept.length, { l with unscanned := kept })

/-- Deletes the records of a height. -/
def deleteUnscanned (height : UInt64) (l : RowLedger) : Nat × RowLedger :=
  l.keepUnscanned fun row => row.height != height.toInt64

/-- Deletes the records of a transaction at a height, whatever their identifiers. -/
def deleteUnscannedRecord (height : UInt64) (txid : String) (l : RowLedger) : Nat × RowLedger :=
  l.keepUnscanned fun row => !(row.height == height.toInt64 && row.txid == txid)

/-- A text up to its first NUL character. -/
def untilNul (text : String) : List Char := text.toList.takeWhile (· ≠ '\x00')

/-- Whether a reason begins with a text, both being measured up to their first NUL character. -/
def reasonBegins (lead reason : String) : Bool :=
  (untilNul reason).take (untilNul lead).length == lead.toList

/-- Deletes the records whose reason begins with a text. -/
def deleteUnscannedByReason (lead : String) (l : RowLedger) : Nat × RowLedger :=
  l.keepUnscanned fun row => !reasonBegins lead row.reason

/-- Performs an operation; only reading a block can fail. -/
def perform : (op : LedgerOp) → RowLedger → Except LedgerError op.Answer × RowLedger
  | .getCursor, l => (.ok l.getCursor, l)
  | .setCursor c, l => (.ok (), l.setCursor c)
  | .getBlock h, l => (l.getBlock h, l)
  | .putBlock b, l => (.ok (), l.putBlock b)
  | .deleteBlocksAbove h, l => ((l.deleteBlocksAbove h).map .ok id)
  | .listUnscanned, l => (.ok l.listUnscanned, l)
  | .listUnscannedAt h, l => (.ok (l.listUnscannedAt h), l)
  | .saveUnscanned r, l => (.ok (), l.saveUnscanned r)
  | .deleteUnscanned h, l => ((l.deleteUnscanned h).map .ok id)
  | .deleteUnscannedRecord h txid, l => ((l.deleteUnscannedRecord h txid).map .ok id)
  | .deleteUnscannedByReason lead, l => ((l.deleteUnscannedByReason lead).map .ok id)

end RowLedger

/-! ## A ledger of either kind -/

/-- A ledger in memory or in a database. -/
inductive Ledger where
  | memory (l : MemoryLedger)
  | rows (l : RowLedger)
deriving DecidableEq, Repr

/-- Performs an operation on a ledger of either kind. -/
def Ledger.perform (op : LedgerOp) : Ledger → Except LedgerError op.Answer × Ledger
  | .memory l =>
    let (answer, l) := l.perform op
    (.ok answer, .memory l)
  | .rows l =>
    let (answer, l) := l.perform op
    (answer, .rows l)

end WalletScan
