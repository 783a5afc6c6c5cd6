import WalletScan.Ledger.Basic
import WalletScan.Classify

/-!
# Scripts: what a scan asks of the world around it

A scan talks to a chain source, a ledger, sinks, observers and the task that drives it. Every such
step is a `Query`, and a `Script` is a computation that asks queries one after the other. A script
does nothing by itself: a `Handler` answers its queries from a state, and `Script.run` answers the
script's result together with the final state and the trace of all exchanges in order.

* `Script.run_bind` — a sequence of two scripts runs as the first one and then, unless that one
  halted, as the second; its trace is the two traces one after the other.

Specification: section 6 (`ChainSource`, `ScanLedger`, `NotifySink`, `BlockObserver`), section 5 for
the state of the task, and section 11 for the status events. All modules cite the full specification
of chainscan by its sections.
-/

set_option autoImplicit false

namespace WalletScan

/-- What a scan asks of the chain source. -/
inductive ChainQuery where
  /-- The height of the current best block. -/
  | tip
  | block (height : UInt64)
  /-- A committed transaction. -/
  | transaction (txid : String)
  /-- The identifiers of the pending transactions. -/
  | mempool
  | mempoolTransaction (txid : String)
  /-- The fee of a transfer of the given kind at a height. -/
  | fee (kind : FeeKind) (height : UInt64)
  | balance (address denom : String)
  | history (address : String)
deriving DecidableEq, Repr

/-- The answer to a transaction lookup: whoever looks it up may also die of it. -/
inductive Lookup where
  | found (tx : Transaction)
  | failed (cause : ChainError)
  | crashed (detail : String)
deriving DecidableEq, Repr

/-- What a chain source answers. -/
@[reducible] def ChainQuery.Answer : ChainQuery → Type
  | .tip => Except ChainError UInt64
  | .block _ => Except ChainError Block
  | .transaction _ => Lookup
  | .mempool => Except ChainError (List String)
  | .mempoolTransaction _ => Except ChainError Transaction
  | .fee _ _ => Except ChainError UInt64
  | .balance _ _ => Except ChainError UInt64
  | .history _ => Except ChainError (List Transaction)

/-- The state of the task that drives a scan. -/
inductive TaskState where
  | idle
  | running
  | paused
  | stopped
deriving DecidableEq, Repr

/-- Why a cycle was interrupted. -/
inductive PauseReason where
  | paused
  | stopped
deriving DecidableEq, Repr

/-- What a cycle reports while it runs. -/
inductive StatusEvent where
  | started (height : UInt64)
  | progress (height : UInt64) (blocks : Nat)
  | forkDetected (abandoned rewoundTo : UInt64)
  | completed (height : UInt64) (blocks : Nat)
  | paused (height : UInt64) (reason : PauseReason)
deriving DecidableEq, Repr

/-- One step of a scan that concerns the world around it. -/
inductive Query where
  | chain (q : ChainQuery)
  | ledger (op : LedgerOp)
  /-- Hands an owner's data to the sink of the given number. -/
  | deliver (sink : Nat) (owner : OwnerKey) (data : ExtractedData)
  /-- Tells the observers of an accepted or, if `isFork`, of an abandoned block. -/
  | announce (header : BlockHeader) (isFork : Bool)
  | report (event : StatusEvent)
  /-- Reads the state of the task. -/
  | taskState
deriving DecidableEq, Repr

/-- What the world answers to a query. An observer that dies answers with its last words. -/
@[reducible] def Query.Answer : Query → Type
  | .chain q => q.Answer
  | .ledger op => Except LedgerError op.Answer
  | .deliver _ _ _ => Except NotifyError Unit
  | .announce _ _ => Except String Unit
  | .report _ => Unit
  | .taskState => TaskState

/-- Why a script ended without a result. -/
inductive Halt where
  | failed (cause : ScanError)
  /-- An observer or a lookup died. -/
  | crashed (detail : String)
  /-- The bound on the number of steps was reached. -/
  | exhausted
deriving DecidableEq, Repr

/-- A computation that asks queries. -/
inductive Script (α : Type) where
  | done (a : α)
  | halt (h : Halt)
  | ask (q : Query) (next : q.Answer → Script α)

namespace Script

variable {α β σ : Type}

/-- Runs a script and then the one that its result selects. -/
def bind : Script α → (α → Script β) → Script β
  | .done a, f => f a
  | .halt h, _ => .halt h
  | .ask q next, f => .ask q fun a => (next a).bind f

instance : Monad Script where
  pure := .done
  bind := Script.bind

@[simp] theorem bind_done (p : Script α) : p.bind .done = p := by
  induction p with
  | done a => rfl
  | halt h => rfl
  | ask q next ih => simp [Script.bind, ih]

theorem bind_assoc {γ : Type} (p : Script α) (f : α → Script β) (g : β → Script γ) :
    (p.bind f).bind g = p.bind fun a => (f a).bind g := by
  induction p with
  | done a => rfl
  | halt h => rfl
  | ask q next ih => simp [Script.bind, ih]

/-- Asks one query. -/
def query (q : Query) : Script q.Answer := .ask q .done

/-- Asks the chain source. -/
def chain (q : ChainQuery) : Script q.Answer := query (.chain q)

/-- Performs a ledger operation; a failure halts the script. -/
def store (op : LedgerOp) : Script op.Answer :=
  .ask (.ledger op) fun
    | .ok answer => .done answer
    | .error cause => .halt (.failed (.ledger cause))

/-- Tells the observers of a block; one that dies takes the script with it. -/
def announce (header : BlockHeader) (isFork : Bool) : Script Unit :=
  .ask (.announce header isFork) fun
    | .ok () => .done ()
    | .error detail => .halt (.crashed detail)

/-- Reports the progress of a cycle. -/
def report (event : StatusEvent) : Script Unit := query (.report event)

/-- Halts with a scan error. -/
def fail (cause : ScanError) : Script α := .halt (.failed cause)

/-- The value of an answer; an error of the chain source halts the script. -/
def demand : Except ChainError α → Script α
  | .ok a => .done a
  | .error cause => fail (.chain cause)

end Script

/-- A query and its answer. -/
abbrev Exchange := (q : Query) × q.Answer

/-- Answers every query from a state. -/
abbrev Handler (σ : Type) := (q : Query) → σ → q.Answer × σ

/-- What a script did: its result, the state after it, and its exchanges in order. -/
structure Run (σ α : Type) where
  result : Except Halt α
  state : σ
  trace : List Exchange

namespace Script

variable {α β σ : Type}

/-- Runs a script against a handler. -/
def run (handler : Handler σ) : Script α → σ → Run σ α
  | .done a, s => ⟨.ok a, s, []⟩
  | .halt h, s => ⟨.error h, s, []⟩
  | .ask q next, s =>
    let (answer, s) := handler q s
    let r := (next answer).run handler s
    ⟨r.result, r.state, ⟨q, answer⟩ :: r.trace⟩

/-- Runs a script against a handler with effects of its own. -/
def runIn {m : Type → Type} [Monad m] (handler : (q : Query) → m q.Answer) :
    Script α → m (Except Halt α)
  | .done a => pure (.ok a)
  | .halt h => pure (.error h)
  | .ask q next => do (next (← handler q)).runIn handler

theorem run_bind (handler : Handler σ) (p : Script α) (f : α → Script β) (s : σ) :
    (p.bind f).run handler s =
      let r := p.run handler s
      match r.result with
      | .ok a =>
        let r' := (f a).run handler r.state
        ⟨r'.result, r'.state, r.trace ++ r'.trace⟩
      | .error h => ⟨.error h, r.state, r.trace⟩ := by
  induction p generalizing s with
  | done a => simp [Script.bind, run]
  | halt h => simp [Script.bind, run]
  | ask q next ih =>
    simp only [Script.bind, run, ih]
    split <;> simp

end Script

end WalletScan
