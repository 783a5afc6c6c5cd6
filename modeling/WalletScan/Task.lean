import WalletScan.Cycle

/-!
# The scan task

A scan task runs cycles in a loop and owns the state that the loop and the engine look at.

```text
  Idle ──run──► Running ◄──restart── Paused
                  │  ▲                 ▲
                  │  └────restart──────┤
                  ├───────pause────────┘
                  └──stop──► Stopped ──run──► Running
```

Calls and the loop's own steps are separate transitions, so any interleaving of them is a run. Every
loop that was ever started is kept, and `ScanTask.handle` names the one that `run` may leave in
place and `wait` takes the result of.

Specification: section 5, and section 11 (`ScanTask`).
-/

set_option autoImplicit false

namespace WalletScan

/-- The state of a task and how often it was set. Whoever remembers a version notices that the state
was set since, even to the value that it had. -/
structure Signal where
  state : TaskState
  version : Nat
deriving DecidableEq, Repr

/-- Sets the state. -/
def Signal.set (s : Signal) (state : TaskState) : Signal := ⟨state, s.version + 1⟩

/-- Pauses if the task is running, and sets nothing otherwise. -/
def Signal.pause (s : Signal) : Signal := if s.state = .running then s.set .paused else s

/-- Where a loop stands; `seen` is the version of the signal that it looked at last. -/
inductive LoopPhase where
  /-- About to look at the state. -/
  | looking
  /-- Running a cycle. -/
  | scanning (seen : Nat)
  /-- Waiting for the interval to pass, or for the state to be set. -/
  | resting (seen : Nat)
  /-- Waiting for the state to be set. -/
  | waiting (seen : Nat)
  | ended (result : Except ScanError Unit)

/-- Whether a loop has not ended. -/
def LoopPhase.isAlive : LoopPhase → Bool
  | .ended _ => false
  | _ => true

/-- Looks at the state: a stopped task ends the loop, a running one starts a cycle. -/
def LoopPhase.look (signal : Signal) : LoopPhase :=
  match signal.state with
  | .stopped => .ended (.ok ())
  | .idle => .waiting signal.version
  | .paused => .waiting signal.version
  | .running => .scanning signal.version

/-- What a loop makes of a cycle that ended: fatal and ledger errors and a crash end it. -/
def LoopPhase.afterCycle {α : Type} (seen : Nat) : Except Halt α → LoopPhase
  | .ok _ => .resting seen
  | .error (.failed (.fatal detail)) => .ended (.error (.fatal detail))
  | .error (.failed (.ledger cause)) => .ended (.error (.ledger cause))
  | .error (.failed _) => .resting seen
  | .error (.crashed detail) =>
    .ended (.error (.fatal ("Scan task panicked: " ++ crashReason detail)))
  | .error .exhausted => .resting seen

/-- Whether a loop that rests or waits finds that the state was set since it looked. -/
def LoopPhase.notices (signal : Signal) : LoopPhase → Bool
  | .resting seen => seen != signal.version
  | .waiting seen => seen != signal.version
  | _ => false

/-- A task: its signal, every loop that was started, and the loop that it holds on to. -/
structure ScanTask where
  signal : Signal
  loops : List LoopPhase
  handle : Option Nat

namespace ScanTask

/-- A task that was never run. -/
def idle : ScanTask := ⟨⟨.idle, 0⟩, [], none⟩

/-- The phase of the loop that the task holds on to. -/
def held (t : ScanTask) : Option LoopPhase := t.handle.bind fun i => t.loops[i]?

/-- Whether the loop that the task holds on to is alive. -/
def isAlive (t : ScanTask) : Bool :=
  match t.held with
  | some phase => phase.isAlive
  | none => false

/-- Starts a loop, unless the one that is held is alive. -/
def ensureLoop (t : ScanTask) : ScanTask :=
  if t.isAlive then t
  else { t with loops := t.loops ++ [.looking], handle := some t.loops.length }

/-- Starts the loop, or resumes it. -/
def run (t : ScanTask) : ScanTask := { t with signal := t.signal.set .running }.ensureLoop

/-- Pauses the task after the block that is being scanned. -/
def pause (t : ScanTask) : ScanTask := { t with signal := t.signal.pause }

/-- Resumes a paused task and starts an idle or stopped one. -/
def restart (t : ScanTask) : ScanTask :=
  match t.signal.state with
  | .running => t
  | .paused => { t with signal := t.signal.set .running }
  | .idle => t.run
  | .stopped => t.run

/-- Asks the loop to end. The call then waits as `wait` does. -/
def requestStop (t : ScanTask) : ScanTask := { t with signal := t.signal.set .stopped }

/-- What a waiting call gets: the result of the held loop once it has ended, and at once if no loop
is held. The result is given only once. -/
def wait? (t : ScanTask) : Option (Except ScanError Unit × ScanTask) :=
  match t.held with
  | none => some (.ok (), t)
  | some (.ended result) => some (result, { t with handle := none })
  | some _ => none

/-- Changes the phase of a loop. -/
def setPhase (i : Nat) (phase : LoopPhase) (t : ScanTask) : ScanTask :=
  { t with loops := t.loops.set i phase }

/-- A loop looks at the state. -/
def look (i : Nat) (t : ScanTask) : ScanTask :=
  match t.loops[i]? with
  | some .looking => t.setPhase i (.look t.signal)
  | _ => t

/-- The cycle of a loop ends. -/
def endCycle (i : Nat) (result : Except Halt CycleReport) (t : ScanTask) : ScanTask :=
  match t.loops[i]? with
  | some (.scanning seen) => t.setPhase i (.afterCycle seen result)
  | _ => t

/-- The interval of a resting loop passes. -/
def wake (i : Nat) (t : ScanTask) : ScanTask :=
  match t.loops[i]? with
  | some (.resting _) => t.setPhase i .looking
  | _ => t

/-- A loop notices that the state was set. -/
def notice (i : Nat) (t : ScanTask) : ScanTask :=
  match t.loops[i]? with
  | some phase => if phase.notices t.signal then t.setPhase i .looking else t
  | none => t

end ScanTask

end WalletScan
