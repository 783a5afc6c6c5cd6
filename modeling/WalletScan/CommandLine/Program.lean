import WalletScan.CommandLine.Command
import WalletScan.Cycle
import WalletScan.Http.Location
import WalletScan.Settings.Load

/-!
# What the commands do

`Command.plan` turns a command under its settings into a script that answers the lines to print, or
says why it cannot be carried out at all. The first sink of the engine is the log; the webhook,
where there is one, is the second.

Specification: section 11, the command line.
-/

set_option autoImplicit false

namespace WalletScan

open Json (Value)

/-- How many sinks the settings name: the log, and the webhook if there is one. -/
def Settings.sinkCount (s : Settings) : Nat := if s.webhook.isSome then 2 else 1

/-- The engine of the settings. -/
def Settings.engine (s : Settings) : Engine :=
  ⟨⟨s.asset, s.watchList.owners⟩, s.sinkCount, s.engineConfig⟩

namespace CommandLine

/-- Why the program failed. -/
inductive Failure where
  | settings (cause : SettingsError)
  | location (text : String) (cause : Http.LocationError)
  | noAddress
  /-- A command that only looks into the ledger could not. -/
  | ledger (cause : LedgerError)
  | scan (cause : ScanError)
  | crashed (detail : String)
  | exhausted
deriving DecidableEq, Repr

/-- The wording of a failure. -/
def Failure.message : Failure → String
  | settings cause => cause.message
  | location text cause =>
    (ScanError.fatal ("Invalid base URL " ++ text ++ ": " ++ cause.message)).message
  | noAddress => "No address given and the watch list is empty"
  | ledger cause => cause.message
  | scan cause => cause.message
  | crashed detail => detail
  | exhausted => "The scan did not come to an end"

/-- The failure of a script that halted. -/
def Failure.ofHalt : Halt → Failure
  | .failed cause => scan cause
  | .crashed detail => crashed detail
  | .exhausted => exhausted

/-! ## Lines -/

/-- A number as text. -/
def wordText (n : UInt64) : String := toString n.toNat

/-- The line about a cycle. -/
def reportLine (r : CycleReport) : String :=
  "Scanned " ++ toString r.blocksScanned ++ " blocks (" ++ wordText r.startHeight ++ " -> "
    ++ wordText r.finalHeight ++ "), " ++ toString r.forks ++ " fork rewinds, "
    ++ toString r.retriedHeights ++ " heights retried, " ++ toString r.purgedRecords
    ++ " records purged"

/-- The lines of the records by owner, as indented JSON. -/
def ownerLines (m : OwnerMap (List ExtractedData)) : List String :=
  let row : OwnerKey × List ExtractedData → Value := fun (owner, data) =>
    .array [.text owner.render, Wire.toValue data]
  (Value.array (m.map row)).renderPretty.splitOn "\n"

/-- The line about a balance. -/
def balanceLine (b : Balance) : String := b.address ++ ": " ++ b.balance ++ " " ++ b.symbol

/-- How wide the column of heights is. -/
def heightWidth : Nat := 10

/-- The line about something that has to be tried again. -/
def unscannedLine (r : UnscannedRecord) : String :=
  let height := wordText r.height
  String.ofList (List.replicate (heightWidth - height.length) ' ') ++ height ++ "  "
    ++ (if r.isBlockLevel then "<block>" else r.txid) ++ "  " ++ r.reason

/-- The lines about everything that has to be tried again. -/
def unscannedLines (records : List UnscannedRecord) : List String :=
  if records.isEmpty then ["No unscanned records"] else records.map unscannedLine

/-! ## Plans -/

/-- How many steps a cycle may take: more than any chain has blocks. -/
def cycleFuel : Nat := UInt64.size * UInt64.size

/-- The script of a command, given the engine. -/
def Command.script (e : Engine) (addresses : List String) : Command → Script (List String)
  | scan _ _ => do return [reportLine (← e.cycle cycleFuel)]
  | daemon _ _ _ => do
    let _ ← e.cycle cycleFuel
    return []
  | rescanFrom _ height => do
    let cursor ← Engine.setRescanHeight height
    return ["Next scan starts at height " ++ wordText (cursor.height + 1)]
  | scanBlock _ height => do
    let header ← e.scanBlock height
    return ["Scanned block " ++ wordText header.height ++ " (" ++ header.hash ++ ")"]
  | extractTransaction _ txid => do
    return ownerLines (← Engine.extractTransaction e.classifier txid)
  | balance _ _ => do return (← Engine.balances e.classifier.asset addresses).map balanceLine
  | history _ _ => do return ownerLines (← Engine.addressHistory e.classifier.asset addresses)
  | unscanned _ (some height) => do
    return unscannedLines (← Script.store (.listUnscannedAt height))
  | unscanned _ none => do return unscannedLines (← Script.store .listUnscanned)

/-- The addresses that a command is about; a balance defaults to the watched ones. -/
def Command.addresses (s : Settings) : Command → List String
  | balance _ [] => s.watch.map (·.address)
  | balance _ addresses => addresses
  | history _ addresses => addresses
  | _ => []

/-- Whether a command talks to the chain. -/
def Command.needsChain : Command → Bool
  | unscanned _ _ => false
  | _ => true

/-- What a command does: where the chain is, if it needs it, and the script. -/
structure Plan where
  base : Option Http.Location
  script : Script (List String)

/-- The plan of a command. The addresses are looked at before the location of the chain. -/
def Command.plan (s : Settings) (c : Command) : Except Failure Plan := do
  let addresses := c.addresses s
  match c with
  | balance _ _ => if addresses.isEmpty then throw .noAddress
  | _ => pure ()
  let script := c.script s.engine addresses
  if c.needsChain then
    match Http.Location.parse s.baseUrl with
    | .ok base => return ⟨some base, script⟩
    | .error cause => throw (.location s.baseUrl cause)
  else return ⟨none, script⟩

/-- Whether the settings may lie at a path: the name of the file has to end in `.toml`. -/
def isSettingsPath (path : String) : Bool :=
  match (path.splitOn "/").getLast? with
  | some name =>
    match name.splitOn "." with
    | [_] => false
    | first :: rest => rest.getLast? == some "toml" && !(first.isEmpty && rest.length == 1)
    | [] => false
  | none => false

/-- The settings of an invocation, given the document at its path. -/
def Invocation.settings (i : Invocation) (document : String)
    (environment : List (String × String)) : Except Failure Settings :=
  if isSettingsPath i.configPath then
    match Settings.load document environment with
    | .ok s => .ok (s.apply i.command.overrides)
    | .error cause => .error (.settings cause)
  else .error (.settings .unreadable)

/-- How the program is used. -/
def usage : List String :=
  "Usage: chainscan [-c <path>] <command> [options]" :: "Commands:"
    :: rules.map fun r => "  " ++ r.name

/-- How the program ends when a command line is refused. -/
def UsageError.exitCode : UsageError → Nat
  | .helpRequested => 0
  | _ => 2

end CommandLine

end WalletScan
