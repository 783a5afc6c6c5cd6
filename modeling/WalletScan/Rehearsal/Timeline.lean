import WalletScan.Rehearsal.World

/-!
# A task on a virtual clock

A `Timeline` carries the loops of a task through virtual time: a cycle takes no time, and a loop
that rests is woken when its interval is over. Between two moments a loop does everything that it
can do without waiting for time.
-/

set_option autoImplicit false

namespace WalletScan.Rehearsal

/-- A world with a clock, the engine that its task drives, and when resting loops wake up. -/
structure Timeline where
  world : World
  engine : Engine
  interval : Nat
  now : Nat
  /-- When the held loop wakes up if it rests. -/
  wakeAt : Nat
  /-- What happened in the cycles so far, in order. -/
  trace : List Exchange

namespace Timeline

/-- How many iterations a cycle may take; the budget of tip questions ends it earlier. -/
def cycleFuel : Nat := 2 * ChainTables.tipsPerStep

/-- One step of the held loop that takes no time, if there is one. -/
def step? (t : Timeline) : Option Timeline := do
  let i ← t.world.task.handle
  let phase ← t.world.task.loops[i]?
  match phase with
  | .looking => return { t with world := { t.world with task := t.world.task.look i } }
  | .scanning _ =>
    let r := t.world.run (t.engine.cycle cycleFuel)
    let world := { r.state with task := r.state.task.endCycle i r.result }
    return { t with world := world, wakeAt := t.now + t.interval, trace := t.trace ++ r.trace }
  | _ =>
    if phase.notices t.world.task.signal then
      return { t with world := { t.world with task := t.world.task.notice i } }
    else none

/-- Lets the held loop do what it can at this moment, in at most the given number of steps. -/
def settle : Nat → Timeline → Timeline
  | 0, t => t
  | fuel + 1, t =>
    match t.step? with
    | some t => settle fuel t
    | none => t

/-- How many steps a loop may take at one moment. -/
def settleFuel : Nat := 1000

/-- When the held loop will be woken, if it rests. -/
def nextWake (t : Timeline) : Option Nat :=
  match t.world.task.held with
  | some (.resting _) => some t.wakeAt
  | _ => none

/-- Wakes the held loop. -/
def wake (t : Timeline) : Timeline :=
  match t.world.task.handle with
  | some i => { t with world := { t.world with task := t.world.task.wake i }, now := t.wakeAt }
  | none => t

/-- Moves the clock on to a moment, waking the held loop on the way. A call that waits for the loop
returns early when it ends. -/
def passUntil (forResult : Bool) (moment : Nat) : Nat → Timeline → Timeline
  | 0, t => { t with now := moment }
  | fuel + 1, t =>
    let t := t.settle settleFuel
    if forResult && (t.world.task.wait?).isSome then t
    else
      match t.nextWake with
      | some at_ => if at_ ≤ moment then t.wake.passUntil forResult moment fuel
          else { t with now := moment }
      | none => { t with now := moment }

/-- Lets some milliseconds pass. -/
def pass (ms : Nat) (t : Timeline) : Timeline := t.passUntil false (t.now + ms) (ms + 2)

/-- Waits for the held loop for some milliseconds; answers its result, if it ended. -/
def waitFor (ms : Nat) (t : Timeline) : Option (Except ScanError Unit) × Timeline :=
  let t := t.passUntil true (t.now + ms) (ms + 2)
  match t.world.task.wait? with
  | some (result, task) => (some result, { t with world := { t.world with task := task } })
  | none => (none, t)

end Timeline

end WalletScan.Rehearsal
