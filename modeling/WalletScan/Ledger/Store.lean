import WalletScan.Ledger.Rows

/-!
# The text of a ledger

The tables of a ledger are kept in a file between two runs of the program. `RowLedger.save` is the
text of that file, and `RowLedger.restore?` reads it back.
-/

set_option autoImplicit false

namespace WalletScan

open Wire
open Json (Form Value)

instance : Wire Int64 where
  form := Form.word64
  toValue n := .number n.toUInt64.toNat
  ofValue?
    | .number n => some (UInt64.ofNat n).toInt64
    | _ => none

instance : Wire BlockRow where
  form := Form.record
    [ field Int64 "height",
      field String "hash",
      field String "previous_hash",
      field Int64 "timestamp",
      field String "transactions" ]
  toValue a := .object
    [ ("height", toValue a.height),
      ("hash", toValue a.hash),
      ("previous_hash", toValue a.previousHash),
      ("timestamp", toValue a.timestamp),
      ("transactions", toValue a.transactions) ]
  ofValue?
    | .object members => do
      pure
        { height := ← member? members "height"
          hash := ← member? members "hash"
          previousHash := ← member? members "previous_hash"
          timestamp := ← member? members "timestamp"
          transactions := ← member? members "transactions" }
    | _ => none

instance : Wire RecordRow where
  form := Form.record
    [ field String "id",
      field Int64 "height",
      field String "txid",
      field String "reason" ]
  toValue a := .object
    [ ("id", toValue a.id),
      ("height", toValue a.height),
      ("txid", toValue a.txid),
      ("reason", toValue a.reason) ]
  ofValue?
    | .object members => do
      pure
        { id := ← member? members "id"
          height := ← member? members "height"
          txid := ← member? members "txid"
          reason := ← member? members "reason" }
    | _ => none

/-- The tables as they are stored. The cursor is a list of at most one. -/
structure StoredTables where
  cursor : List Cursor
  blocks : List BlockRow
  unscanned : List RecordRow
deriving DecidableEq, Repr

instance : Wire StoredTables where
  form := Form.record
    [ field (List Cursor) "cursor",
      field (List BlockRow) "blocks",
      field (List RecordRow) "unscanned" ]
  toValue a := .object
    [ ("cursor", toValue a.cursor),
      ("blocks", toValue a.blocks),
      ("unscanned", toValue a.unscanned) ]
  ofValue?
    | .object members => do
      pure
        { cursor := ← member? members "cursor"
          blocks := ← member? members "blocks"
          unscanned := ← member? members "unscanned" }
    | _ => none

namespace RowLedger

/-- The text of a ledger. -/
def save (l : RowLedger) : String := Wire.encode
  (StoredTables.mk l.getCursor.toList l.blocks l.unscanned)

/-- The ledger of a text. -/
def restore? (text : String) : Option RowLedger :=
  match Wire.decode (α := StoredTables) text with
  | .ok t => some ⟨t.cursor.head?.map fun c => (c.height.toInt64, c.hash), t.blocks, t.unscanned⟩
  | .error _ => none

end RowLedger

end WalletScan
