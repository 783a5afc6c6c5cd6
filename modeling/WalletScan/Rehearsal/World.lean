import WalletScan.Rehearsal.Chain
import WalletScan.Ledger.Rows
import WalletScan.Task

/-!
# A rehearsed world

A `World` answers every query of a script: a scripted chain source, a ledger whose operations can be
made to fail, sinks that refuse by rule, an event channel that can be closed, and observers that set
the state of the task when a given block is announced.
-/

set_option autoImplicit false

namespace WalletScan.Rehearsal

/-- When a sink refuses a delivery; a rule without conditions refuses every one. -/
structure RefusalRule where
  txid : Option String
  owner : Option String
  cause : NotifyError
deriving DecidableEq, Repr

/-- Whether a rule applies to a delivery. -/
def RefusalRule.applies (r : RefusalRule) (owner : OwnerKey) (data : ExtractedData) : Bool :=
  (match r.txid with
    | none => true
    | some txid => (data.transaction.map (·.txid)) == some txid)
    && (match r.owner with
      | none => true
      | some o => o == owner.render)

/-- A sink that refuses its first deliveries, and then those that a rule names. -/
structure ScriptedSink where
  refuseFirst : Nat
  rules : List RefusalRule
deriving DecidableEq, Repr

/-- The answer of a sink to a delivery. -/
def ScriptedSink.answer (s : ScriptedSink) (owner : OwnerKey) (data : ExtractedData) :
    Except NotifyError Unit × ScriptedSink :=
  match s.refuseFirst with
  | n + 1 => (.error (.rejected "first"), { s with refuseFirst := n })
  | 0 =>
    match s.rules.find? fun r => r.applies owner data with
    | some r => (.error r.cause, s)
    | none => (.ok (), s)

/-- What an observer does when it hears of a block. -/
inductive HookAction where
  | set (state : TaskState)
  /-- Pauses the task as a caller would. -/
  | pause
  /-- Dies with the given words. -/
  | die (detail : String)
deriving DecidableEq, Repr

/-- An observer that waits for one announcement. -/
structure Hook where
  height : UInt64
  isFork : Bool
  action : HookAction
deriving DecidableEq, Repr

/-- How many more calls of a ledger operation succeed, and how many then fail. -/
structure LedgerFault where
  skip : Nat
  times : Nat
deriving DecidableEq, Repr

/-- Everything that a script talks to. -/
structure World where
  chain : ChainTables
  ledger : Ledger
  /-- Failures to come, by the name of the ledger operation. -/
  faults : Table String LedgerFault
  sinks : List ScriptedSink
  /-- Whether the event channel is open, if there is one; it is the sink after the others. -/
  channel : Option Bool
  hooks : List Hook
  task : ScanTask
  /-- Whether the engine looks at the task; it always finds it running otherwise. -/
  attached : Bool

namespace World

/-- How many sinks an engine delivers to in this world. -/
def sinkCount (w : World) : Nat := w.sinks.length + (if w.channel.isSome then 1 else 0)

/-- Performs a ledger operation unless it is due to fail. -/
def performLedger (op : LedgerOp) (w : World) : Except LedgerError op.Answer × World :=
  match w.faults.lookup op.name with
  | some ⟨0, times + 1⟩ =>
    (.error (.unexpected ("injected " ++ op.name)),
      { w with faults := w.faults.insert op.name ⟨0, times⟩ })
  | some ⟨skip + 1, times⟩ =>
    let (answer, ledger) := w.ledger.perform op
    (answer, { w with ledger := ledger, faults := w.faults.insert op.name ⟨skip, times⟩ })
  | _ =>
    let (answer, ledger) := w.ledger.perform op
    (answer, { w with ledger := ledger })

/-- Delivers to a sink; the channel takes everything while it is open. -/
def deliver (sink : Nat) (owner : OwnerKey) (data : ExtractedData) (w : World) :
    Except NotifyError Unit × World :=
  match w.sinks[sink]? with
  | some s =>
    let (answer, s) := s.answer owner data
    (answer, { w with sinks := w.sinks.set sink s })
  | none => (if w.channel = some false then .error .closed else .ok (), w)

/-- Lets the observers hear of a block, one after the other. -/
def announce (header : BlockHeader) (isFork : Bool) : List Hook → World → Except String Unit × World
  | [], w => (.ok (), w)
  | hook :: rest, w =>
    if hook.height = header.height ∧ hook.isFork = isFork then
      match hook.action with
      | .die detail => (.error detail, w)
      | .pause => announce header isFork rest { w with task := w.task.pause }
      | .set state =>
        announce header isFork rest
          { w with task := { w.task with signal := w.task.signal.set state } }
    else announce header isFork rest w

/-- Answers a query. -/
def handle : Handler World
  | .chain q, w =>
    let (answer, chain) := w.chain.answer q
    (answer, { w with chain := chain })
  | .ledger op, w => w.performLedger op
  | .deliver sink owner data, w => w.deliver sink owner data
  | .announce header isFork, w => announce header isFork w.hooks w
  | .report _, w => ((), w)
  | .taskState, w => (if w.attached then w.task.signal.state else .running, w)

/-- Runs a script in this world. -/
def run {α : Type} (w : World) (p : Script α) : Run World α := p.run handle w

/-- Refills the budget of questions for the tip. -/
def refill (w : World) : World :=
  { w with chain := { w.chain with tipBudget := ChainTables.tipsPerStep } }

end World

end WalletScan.Rehearsal
