import WalletScan.Block
import WalletScan.Error

/-!
# Operations of a ledger

A ledger keeps the durable state of a scan: the cursor, a cache of blocks by height, and the
unscanned records. `LedgerOp` names every operation, and `LedgerOp.Answer` says what each answers.

Specification: section 6 (`ScanLedger`).
-/

set_option autoImplicit false

namespace WalletScan

/-- An operation of a ledger. -/
inductive LedgerOp where
  | getCursor
  | setCursor (cursor : Cursor)
  | getBlock (height : UInt64)
  /-- Caches a block in place of the one at its height. -/
  | putBlock (block : Block)
  | deleteBlocksAbove (height : UInt64)
  | listUnscanned
  | listUnscannedAt (height : UInt64)
  | saveUnscanned (record : UnscannedRecord)
  | deleteUnscanned (height : UInt64)
  | deleteUnscannedRecord (height : UInt64) (txid : String)
  /-- Deletes the records whose reason begins with a text. -/
  | deleteUnscannedByReason (lead : String)
deriving DecidableEq, Repr

/-- What an operation answers; deletions answer how many entries they removed. -/
@[reducible] def LedgerOp.Answer : LedgerOp → Type
  | .getCursor => Option Cursor
  | .setCursor _ => Unit
  | .getBlock _ => Option Block
  | .putBlock _ => Unit
  | .deleteBlocksAbove _ => Nat
  | .listUnscanned => List UnscannedRecord
  | .listUnscannedAt _ => List UnscannedRecord
  | .saveUnscanned _ => Unit
  | .deleteUnscanned _ => Nat
  | .deleteUnscannedRecord _ _ => Nat
  | .deleteUnscannedByReason _ => Nat

/-- The name of an operation. -/
def LedgerOp.name : LedgerOp → String
  | .getCursor => "get_cursor"
  | .setCursor _ => "set_cursor"
  | .getBlock _ => "get_block"
  | .putBlock _ => "put_block"
  | .deleteBlocksAbove _ => "delete_blocks_above"
  | .listUnscanned => "list_unscanned"
  | .listUnscannedAt _ => "list_unscanned_at"
  | .saveUnscanned _ => "save_unscanned"
  | .deleteUnscanned _ => "delete_unscanned"
  | .deleteUnscannedRecord _ _ => "delete_unscanned_record"
  | .deleteUnscannedByReason _ => "delete_unscanned_by_reason_prefix"

/-- Whether a text begins with another. -/
def beginsWith (lead text : String) : Bool := lead.toList.isPrefixOf text.toList

end WalletScan
