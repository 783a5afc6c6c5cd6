import WalletScan.Log.Record
import WalletScan.Owner
import WalletScan.Extracted
import WalletScan.Block

/-!
# What the scanner logs about its findings

One record for every block that is scanned or abandoned, and for every extracted input, output and
transaction. Of an address the log shows only the first and last six characters, unless the
environment asks for addresses to be revealed.

Specification: section 10.2 (`mask_address`) and section 11 (`LoggingObserver`).
-/

set_option autoImplicit false

namespace WalletScan

/-! ## Masked addresses -/

/-- How many characters stay visible at each end. -/
def maskWidth : Nat := 6

/-- The masked form of an address; a short one is hidden altogether. -/
def maskAddress (address : String) : String :=
  let chars := address.toList
  if chars.length ≤ 2 * maskWidth then "***"
  else
    String.ofList
      (chars.take maskWidth ++ "...".toList ++ chars.drop (chars.length - maskWidth))

/-- Whether an environment asks for addresses to be shown in full. -/
def revealsAddresses (environment : List (String × String)) : Bool :=
  match environment.lookup "REVEAL_ADDRESSES" with
  | some word => word.toLower == "true" || word == "1"
  | none => false

/-- What the log shows of an address. -/
def shownAddress (reveal : Bool) (address : String) : String :=
  if reveal then address else maskAddress address

namespace Log

/-! ## Notices -/

/-- What part of the program logs findings. -/
def noticeTarget : String := "chainscan::notify::logging"

/-- A record about a finding. -/
def notice (message : String) (pairs : List (String × Value)) : Record :=
  ⟨.info, noticeTarget, message, pairs⟩

/-- The record of a block. -/
def blockNotice (header : BlockHeader) (abandoned : Bool) : Record :=
  notice (if abandoned then "Block abandoned by fork" else "Block scanned")
    [("height", .ofWord header.height), ("hash", .text header.hash)]

/-- The name of a kind of movement. -/
def movementName : TxType → String
  | .transfer => "Transfer"
  | .feeCharge => "FeeCharge"

/-- The values of a record about an address. -/
def addressPairs (reveal : Bool) (owner : OwnerKey) (txid address : String) (amount : UInt64) :
    List (String × Value) :=
  [("owner", .text owner.render), ("txid", .text txid),
    ("address", .text (shownAddress reveal address)), ("amount", .ofWord amount)]

/-- The records of the data of an owner: inputs, outputs, and the transaction if it has one. -/
def dataNotices (reveal : Bool) (owner : OwnerKey) (data : ExtractedData) : List Record :=
  (data.inputs.map fun i =>
    notice "Input extracted" (addressPairs reveal owner i.txid i.address i.amount))
  ++ (data.outputs.map fun o =>
    notice "Output extracted" (addressPairs reveal owner o.txid o.address o.amount))
  ++ data.transaction.toList.map fun s =>
    notice "Transaction extracted"
      [("owner", .text owner.render), ("txid", .text s.txid),
        ("tx_type", .text (movementName s.txType)), ("fees", .ofWord s.fees)]

end Log

end WalletScan
