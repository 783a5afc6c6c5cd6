import WalletScan.Digest.Sha256

/-!
# Blocks, the scan cursor and unscanned records

The scanner follows a chain of blocks. It keeps a cursor on the last block that was fully processed,
and a record for every block or transaction that has to be tried again.

Specification: section 3 (`BlockHeader`, `Block`, `ScanCursor`, `UnscannedRecord`).
-/

set_option autoImplicit false

namespace WalletScan

/-- A height lowered by some steps, but not below zero. -/
def lowered (height steps : UInt64) : UInt64 := if steps ≤ height then height - steps else 0

/-- The header of a block as the chain reports it; its identity is the hash. -/
structure BlockHeader where
  hash : String
  previousHash : String
  height : UInt64
  /-- Seconds since 1970. -/
  timestamp : UInt64
deriving DecidableEq, Repr

/-- A block with the ordered identifiers of the transactions that it commits. -/
structure Block where
  header : BlockHeader
  transactions : List String
deriving DecidableEq, Repr

/-- The height of a block. -/
def Block.height (b : Block) : UInt64 := b.header.height

/-- The hash of a block. -/
def Block.hash (b : Block) : String := b.header.hash

/-- The last block that was fully processed; height zero means that nothing was scanned yet. -/
structure Cursor where
  height : UInt64
  hash : String
deriving DecidableEq, Repr

/-- Whether nothing was scanned yet. -/
def Cursor.isEmpty (c : Cursor) : Bool := c.height == 0

/-- The cursor that stands on a block. -/
def BlockHeader.cursor (h : BlockHeader) : Cursor := ⟨h.height, h.hash⟩

/-- A block or transaction that has to be tried again; an empty `txid` stands for the block. -/
structure UnscannedRecord where
  id : String
  height : UInt64
  txid : String
  reason : String
deriving DecidableEq, Repr

namespace UnscannedRecord

/-- The identifier of the record of a transaction at a height: saving it again replaces it. -/
def idOf (height : UInt64) (txid : String) : String :=
  Sha256.hexOfText (toString height.toNat ++ "_" ++ txid)

/-- The record of a transaction at a height under its computed identifier. -/
def of (height : UInt64) (txid reason : String) : UnscannedRecord :=
  ⟨idOf height txid, height, txid, reason⟩

/-- Whether the whole block has to be fetched again. -/
def isBlockLevel (r : UnscannedRecord) : Bool := r.txid == ""

end UnscannedRecord

end WalletScan
