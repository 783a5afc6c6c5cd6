import WalletScan.CommandLine.Host
import WalletScan.Ledger.Rows
import WalletScan.Log.Pattern
import WalletScan.Rehearsal.Network

/-!
# A rehearsed machine

A `Session` is a host for the program: documents and ledgers by path, a network with one server, an
environment, and a clock that stands still. Commands run in it one after the other, and
`Session.output` is what a command writes.
-/

set_option autoImplicit false

namespace WalletScan.Rehearsal

open CommandLine (Ending Host)

/-- A machine on which commands run one after the other. -/
structure Session where
  network : Network
  documents : Table String String
  ledgers : Table String RowLedger
  environment : List (String × String)
  /-- How the log is written, if it is to be seen. -/
  pattern : Option (List Log.Piece)
  now : Moment
  /-- What the log has written so far. -/
  log : String

namespace Session

/-- The document at a path; the given one is written where there is none. -/
def document (path fresh : String) (s : Session) : Except SettingsError String × Session :=
  match s.documents.lookup path with
  | some document => (.ok document, s)
  | none => (.ok fresh, { s with documents := s.documents.insert path fresh })

/-- Performs an operation on the ledger at a path. -/
def store (path : String) (op : LedgerOp) (s : Session) : Except LedgerError op.Answer × Session :=
  let (answer, ledger) := ((s.ledgers.lookup path).getD .empty).perform op
  (answer, { s with ledgers := s.ledgers.insert path ledger })

/-- Sends a request. -/
def send (method : String) (location : Http.Location) (s : Session) : Http.Reply × Session :=
  let (reply, network) := s.network.send method location
  (reply, { s with network := network })

/-- Writes a record to the log. -/
def note (record : Log.Record) (s : Session) : Session :=
  match s.pattern with
  | some pattern => { s with log := s.log ++ Log.plainText (Log.lineMarks pattern s.now record) }
  | none => s

/-- The machine as a host. -/
def host : Host (StateM Session) where
  environment := fun s => (s.environment, s)
  document := document
  fetch _ location := send "GET" location
  post location _ := send "POST" location
  store := store
  note record := fun s => ((), s.note record)
  now := fun s => (s.now, s)
  taskState := fun s => (.running, s)

/-- The lines of a text, each of which ends in a line feed. -/
def linesOf (text : String) : List String := (text.splitOn "\n").dropLast

/-- Runs a command; answers how it ended, and all lines that it wrote. -/
def perform (words : List String) (s : Session) : (Ending × List String) × Session :=
  let (ending, s) := host.perform words { s with log := "" }
  let printed := String.join (ending.lines.map (· ++ "\n"))
  ((ending, linesOf (s.log ++ printed)), s)

end Session

end WalletScan.Rehearsal
