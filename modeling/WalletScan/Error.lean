/-!
# Errors

Every error is a cause; its wording is in the `message` function of its type. A message that
carries another error ends with that error's message.

Specification: sections 7 and 10.1 (`ChainError`, `ScanDbError`, `NotifyError`, `ExtractError`,
`ScanError`).
-/

set_option autoImplicit false

namespace WalletScan

/-- Why a chain source did not answer. -/
inductive ChainError where
  /-- The node knows nothing about the transaction: it was pruned or never existed. -/
  | transactionNotFound (txid : String)
  | blockNotFound (height : UInt64)
  /-- Transport failure, time-out or server error. -/
  | unavailable (detail : String)
  /-- The answer could not be decoded. -/
  | malformed (detail : String)
  | unsupported (operation : String)
deriving DecidableEq, Repr

/-- How every reason begins that says a transaction is unknown. Such failures are permanent. -/
def unknownTransactionLead : String := "[-5]No information available about transaction"

/-- The wording of a chain error. -/
def ChainError.message : ChainError → String
  | .transactionNotFound txid => unknownTransactionLead ++ " " ++ txid
  | .blockNotFound height => "Block at height " ++ toString height.toNat ++ " not found"
  | .unavailable detail => "Chain source unavailable: " ++ detail
  | .malformed detail => "Malformed chain data: " ++ detail
  | .unsupported operation => "Operation not supported by this chain source: " ++ operation

/-- Why the ledger could not be read or written. -/
inductive LedgerError where
  | invalidInput (detail : String)
  | unexpected (detail : String)
  /-- A stored list of transaction identifiers is not an array of texts. -/
  | unreadable
deriving DecidableEq, Repr

/-- The wording of a ledger error. -/
def LedgerError.message : LedgerError → String
  | .invalidInput detail => "Invalid input: " ++ detail
  | .unexpected detail => "Unexpected error: " ++ detail
  | .unreadable => "Serialization/Deserialization error"

/-- Why a sink did not take a delivery. -/
inductive NotifyError where
  | rejected (detail : String)
  | transport (detail : String)
  | closed
deriving DecidableEq, Repr

/-- The wording of a delivery error. -/
def NotifyError.message : NotifyError → String
  | .rejected detail => "Delivery rejected: " ++ detail
  | .transport detail => "Delivery transport failed: " ++ detail
  | .closed => "Notification channel closed"

/-- Why a scan or an inquiry stopped. -/
inductive ScanError where
  /-- Scanning has to stop altogether. -/
  | fatal (detail : String)
  /-- The next cycle may succeed. -/
  | intermittent (detail : String)
  /-- The ledger failed. -/
  | ledger (cause : LedgerError)
  /-- A transaction that a caller asked for could not be extracted. -/
  | extraction (txid reason : String)
  | invalidHeight (height : UInt64)
  /-- A query on behalf of a caller failed. -/
  | chain (cause : ChainError)
deriving DecidableEq, Repr

/-- The wording of a scan error. -/
def ScanError.message : ScanError → String
  | .fatal detail => "Fatal error: " ++ detail
  | .intermittent detail => "Intermittent error: " ++ detail
  | .ledger cause => "Database execution error: " ++ cause.message
  | .extraction txid reason => "Transaction " ++ txid ++ " could not be extracted: " ++ reason
  | .invalidHeight height => "Invalid scan height " ++ toString height.toNat
  | .chain cause => "Chain source error: " ++ cause.message

/-- Why a batch was not extracted completely. -/
inductive BatchError where
  /-- Some transactions were recorded to be tried again, listed in the order they failed. -/
  | incomplete (height : UInt64) (failed : List String) (total : Nat)
  /-- A failure could not be recorded, and the batch was abandoned. -/
  | ledger (cause : LedgerError)
deriving DecidableEq, Repr

/-- The wording of a batch error. -/
def BatchError.message : BatchError → String
  | .incomplete height failed total =>
    toString failed.length ++ " of " ++ toString total ++ " transactions at height "
      ++ toString height.toNat ++ " failed"
  | .ledger cause => "Failed to record unscanned transaction: " ++ cause.message

/-- How the delivery failure of an owner is recorded. -/
def deliveryReason (owner : String) (e : NotifyError) : String :=
  "notify " ++ owner ++ " failed: " ++ e.message

/-- How a failed fee lookup is recorded. -/
def feeReason (e : ChainError) : String := "fee lookup failed: " ++ e.message

/-- How a worker that died is recorded. -/
def crashReason (detail : String) : String := "task N panicked with message \"" ++ detail ++ "\""

end WalletScan
