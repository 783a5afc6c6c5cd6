import WalletScan.CommandLine.Grammar
import WalletScan.Settings.Basic

/-!
# The commands of the scanner

`Invocation.parse` reads the words of a command line: which settings to load, and what to do with
them. The path of the settings may be given before the command or after it; what stands after it
wins.

Specification: section 11, the command line.
-/

set_option autoImplicit false

namespace WalletScan.CommandLine

/-- Which chain and which ledger to use instead of the configured ones. -/
structure Connection where
  baseUrl : Option String
  databasePath : Option String
deriving DecidableEq, Repr

/-- What the scanner is asked to do. -/
inductive Command where
  /-- One scan cycle. -/
  | scan (connection : Connection) (mempool : Bool)
  /-- Scan cycles until the program is interrupted. -/
  | daemon (connection : Connection) (interval : Option UInt64) (mempool : Bool)
  /-- Move the cursor so that the next cycle starts at a height. -/
  | rescanFrom (connection : Connection) (height : UInt64)
  /-- Extract one block and leave the cursor where it is. -/
  | scanBlock (connection : Connection) (height : UInt64)
  /-- Show what one transaction means for the watched addresses. -/
  | extractTransaction (connection : Connection) (txid : String)
  /-- Show the balances of addresses. -/
  | balance (connection : Connection) (addresses : List String)
  /-- Show the history of addresses. -/
  | history (connection : Connection) (addresses : List String)
  /-- List what has to be tried again. -/
  | unscanned (databasePath : Option String) (height : Option UInt64)
deriving DecidableEq, Repr

/-- A command with the path of the settings. -/
structure Invocation where
  configPath : String
  command : Command
deriving DecidableEq, Repr

/-- The settings that a connection stands for. -/
def Connection.overrides (c : Connection) : Overrides := ⟨c.baseUrl, c.databasePath, none, false⟩

/-- The settings that a command line stands for. -/
def Command.overrides : Command → Overrides
  | scan c mempool => { c.overrides with scanMempool := mempool }
  | daemon c interval mempool =>
    { c.overrides with scanIntervalSecs := interval, scanMempool := mempool }
  | rescanFrom c _ => c.overrides
  | scanBlock c _ => c.overrides
  | extractTransaction c _ => c.overrides
  | balance c _ => c.overrides
  | history c _ => c.overrides
  | unscanned path _ => ⟨none, path, none, false⟩

/-! ## Grammar -/

/-- The path of the settings. -/
def configOption : Slot := ⟨"config", some 'c', .single .path⟩

/-- The request for help. -/
def helpOption : Slot := ⟨"help", some 'h', .help⟩

/-- The path of the ledger. -/
def databaseOption : Slot := ⟨"database-file", some 'd', .single .path⟩

/-- The options that choose chain and ledger. -/
def connectionOptions : List Slot := [⟨"base-url", some 'u', .single .text⟩, databaseOption]

/-- Whether the mempool is scanned too. -/
def mempoolOption : Slot := ⟨"scan-mempool", none, .switch⟩

/-- The addresses that are asked for. -/
def addressOption : Slot := ⟨"address", some 'a', .repeatable .text⟩

/-- The argument that is a height. -/
def heightArgument : Slot := ⟨"height", none, .single .number⟩

/-- A command: its name, its grammar, and how its values are read; `none` stands for a required
value that was not given. -/
structure Rule where
  name : String
  options : List Slot
  argument : Option Slot
  read : Gathered → Option Command

/-- The connection among what was given. -/
def connectionOf (g : Gathered) : Connection := ⟨g.value? "base-url", g.value? "database-file"⟩

/-- All commands. -/
def rules : List Rule :=
  [ ⟨"scan", connectionOptions ++ [mempoolOption], none,
      fun g => some (.scan (connectionOf g) (g.has "scan-mempool"))⟩,
    ⟨"daemon",
      connectionOptions ++ [⟨"scan-interval-secs", some 's', .single .number⟩, mempoolOption], none,
      fun g => some (.daemon (connectionOf g) (g.number? "scan-interval-secs")
        (g.has "scan-mempool"))⟩,
    ⟨"rescan-from", connectionOptions, some heightArgument,
      fun g => (g.number? "height").map (.rescanFrom (connectionOf g))⟩,
    ⟨"scan-block", connectionOptions, some heightArgument,
      fun g => (g.number? "height").map (.scanBlock (connectionOf g))⟩,
    ⟨"extract-tx", connectionOptions, some ⟨"txid", none, .single .text⟩,
      fun g => (g.value? "txid").map (.extractTransaction (connectionOf g))⟩,
    ⟨"balance", connectionOptions ++ [addressOption], none,
      fun g => some (.balance (connectionOf g) (g.values "address"))⟩,
    ⟨"history", connectionOptions ++ [addressOption], none,
      fun g =>
        if g.has "address" then some (.history (connectionOf g) (g.values "address")) else none⟩,
    ⟨"unscanned", [databaseOption, ⟨"height", none, .single .number⟩], none,
      fun g => some (.unscanned (g.value? "database-file") (g.number? "height"))⟩ ]

/-- The grammar of the words before the command. -/
def outerGrammar : Grammar := ⟨[configOption, helpOption], none, rules.map (·.name)⟩

/-- The grammar of the words after the name of a command. -/
def Rule.grammar (r : Rule) : Grammar := ⟨r.options ++ [configOption, helpOption], r.argument, []⟩

/-- Reads the words after the name of a command, and the path of the settings among them. -/
def Rule.parse (r : Rule) (words : List String) :
    Except UsageError (Command × Option String) := do
  let (g, _) ← r.grammar.gather false words .empty
  let g ← settle g
  match r.read g with
  | some command => return (command, g.value? "config")
  | none => throw .missingArgument

/-- What the command `help` answers: help on a command, if there is one of that name. -/
def helpAnswer (words : List String) : UsageError :=
  match words with
  | [] => .helpRequested
  | [word] => if outerGrammar.isCommand word then .helpRequested else .unknownCommand
  | _ => .unknownCommand

/-- The path of the settings where none is given. -/
def defaultConfigPath : String := "data/config.toml"

/-- Reads the words of a command line. -/
def Invocation.parse (words : List String) : Except UsageError Invocation := do
  let (g, next) ← outerGrammar.gather false words .empty
  match next with
  | some (name, rest) =>
    match rules.find? fun r => r.name == name with
    | none => throw (helpAnswer rest)
    | some r =>
      let (command, inner) ← r.parse rest
      let g ← settle g
      return ⟨inner.getD ((g.value? "config").getD defaultConfigPath), command⟩
  | none =>
    let g ← settle g
    throw (if g.given.isEmpty then .nothingGiven else .missingCommand)

end WalletScan.CommandLine
