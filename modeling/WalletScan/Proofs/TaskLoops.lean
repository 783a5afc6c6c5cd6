import WalletScan.Task

/-!
# One loop at a time

Calls on a task follow one another, and the loops take steps of their own at any time, also while a
call is under way.  A call does two things: it sets the state, and then it starts a loop, waits for
one, or returns.

* `Course` — every sequence of calls, cycle outcomes and steps of the loops, interleaved anyhow.
* `LoopStep.moves`, `Remainder.finish_cases` — what a loop and a call that returns can do.
* `course_one_loop` — at most one loop is alive, and none between a stop and the next start.
-/

set_option autoImplicit false

namespace WalletScan

/-! ## Calls -/

/-- A call on a task. -/
inductive Call where
  | run
  | pause
  | restart
  | stop
  | wait
deriving DecidableEq, Repr

/-- What a call does after it has set the state. -/
inductive Remainder where
  | nothing
  /-- Start a loop unless the one that is held is alive. -/
  | start
  /-- Wait for the loop that is held. -/
  | join
deriving DecidableEq, Repr

/-- A task with its state set. -/
def ScanTask.setState (state : TaskState) (t : ScanTask) : ScanTask :=
  { t with signal := t.signal.set state }

/-- A call begins: it sets the state, and may have to do more. -/
def Call.begin (t : ScanTask) : Call → ScanTask × Remainder
  | .run => (t.setState .running, .start)
  | .pause => (t.pause, .nothing)
  | .restart =>
    match t.signal.state with
    | .running => (t, .nothing)
    | .paused => (t.setState .running, .nothing)
    | .idle => (t.setState .running, .start)
    | .stopped => (t.setState .running, .start)
  | .stop => (t.requestStop, .join)
  | .wait => (t, .join)

/-- What a call leaves when it returns, if it can return already. -/
def Remainder.finish (t : ScanTask) : Remainder → Option ScanTask
  | .nothing => some t
  | .start => some t.ensureLoop
  | .join => t.wait?.map (·.2)

/-- What a call does if no loop takes a step before it returns. -/
def Call.alone (t : ScanTask) : Call → Option ScanTask
  | .run => some t.run
  | .pause => some t.pause
  | .restart => some t.restart
  | .stop => t.requestStop.wait?.map (·.2)
  | .wait => t.wait?.map (·.2)

/-- The two parts of a call make up the whole. -/
theorem Call.finish_begin (t : ScanTask) (c : Call) :
    (c.begin t).2.finish (c.begin t).1 = c.alone t := by
  cases c with
  | restart =>
    unfold Call.begin Call.alone ScanTask.restart
    cases t.signal.state <;> rfl
  | _ => rfl

/-! ## Courses of events -/

/-- What happens to a task. -/
inductive Event where
  | begins (c : Call)
  | returns (c : Call)
  /-- Whoever waits for the loop does so no longer. -/
  | givesUp (c : Call)
  /-- A loop looks at the state, and goes on as it finds. -/
  | looks (loop : Nat) (found : LoopPhase)
  | endsCycle (loop : Nat) (result : Except Halt CycleReport)
  /-- The interval of a loop passes. -/
  | wakes (loop : Nat)
  /-- A loop notices that the state was set. -/
  | notices (loop : Nat)

/-- A cycle begins. -/
def Event.StartsCycle : Event → Prop
  | .looks _ (.scanning _) => True
  | _ => False

/-- A task, and the call that is under way. -/
structure Situation where
  task : ScanTask
  pending : Option (Call × Remainder)

/-- A loop takes its next step. -/
inductive LoopStep (t : ScanTask) (i : Nat) : Event → ScanTask → Prop
  | looks (h : t.loops[i]? = some .looking) : LoopStep t i (.looks i (.look t.signal)) (t.look i)
  | endsCycle {seen : Nat} (result : Except Halt CycleReport)
      (h : t.loops[i]? = some (.scanning seen)) :
      LoopStep t i (.endsCycle i result) (t.endCycle i result)
  | wakes {seen : Nat} (h : t.loops[i]? = some (.resting seen)) :
      LoopStep t i (.wakes i) (t.wake i)
  | notices {phase : LoopPhase} (h : t.loops[i]? = some phase)
      (hset : phase.notices t.signal = true) : LoopStep t i (.notices i) (t.notice i)

/-- What can happen: a call begins if none is under way, it returns when it can, and a loop takes
its next step at any time. -/
inductive Step : Situation → Event → Situation → Prop
  | begins (t : ScanTask) (c : Call) :
      Step ⟨t, none⟩ (.begins c) ⟨(c.begin t).1, some (c, (c.begin t).2)⟩
  | returns {t t' : ScanTask} {c : Call} {rest : Remainder} (h : rest.finish t = some t') :
      Step ⟨t, some (c, rest)⟩ (.returns c) ⟨t', none⟩
  | givesUp (t : ScanTask) (c : Call) : Step ⟨t, some (c, .join)⟩ (.givesUp c) ⟨t, none⟩
  | loop {t t' : ScanTask} {pending : Option (Call × Remainder)} {i : Nat} {e : Event}
      (h : LoopStep t i e t') : Step ⟨t, pending⟩ e ⟨t', pending⟩

/-- What happens to a task that was never run before, and where it leads. -/
inductive Course : List Event → Situation → Prop
  | idle : Course [] ⟨.idle, none⟩
  | step {events : List Event} {s s' : Situation} {e : Event} (h : Course events s)
      (hstep : Step s e s') : Course (events ++ [e]) s'

/-! ## What a step can do -/

/-- A result of a cycle that ends the loop. -/
def Fatal : Except Halt CycleReport → Prop
  | .error (.failed (.fatal _)) => True
  | .error (.failed (.ledger _)) => True
  | .error (.crashed _) => True
  | _ => False

theorem LoopPhase.afterCycle_fatal (seen : Nat) (result : Except Halt CycleReport) :
    (∃ cause, LoopPhase.afterCycle seen result = .ended (.error cause)) ↔ Fatal result := by
  rcases result with ((_ | _ | _ | _ | _ | _) | detail | _) | report <;>
    simp [LoopPhase.afterCycle, Fatal]

theorem LoopPhase.afterCycle_ne_ok (seen : Nat) (result : Except Halt CycleReport) :
    LoopPhase.afterCycle seen result ≠ .ended (.ok ()) := by
  rcases result with ((_ | _ | _ | _ | _ | _) | detail | _) | report <;>
    simp [LoopPhase.afterCycle]

theorem LoopPhase.look_ok {signal : Signal} (h : LoopPhase.look signal = .ended (.ok ())) :
    signal.state = .stopped := by
  unfold LoopPhase.look at h
  cases hstate : signal.state with
  | stopped => rfl
  | _ => simp [hstate] at h

theorem LoopPhase.look_ne_error (signal : Signal) (cause : ScanError) :
    LoopPhase.look signal ≠ .ended (.error cause) := by
  unfold LoopPhase.look
  cases signal.state <;> simp

theorem LoopPhase.alive_of_notices {signal : Signal} {phase : LoopPhase}
    (h : phase.notices signal = true) : phase.isAlive = true := by
  cases phase with
  | ended result => cases h
  | _ => rfl

/-- A loop that is alive goes on to another phase.  It ends without an error only if it finds the
task stopped, and with one only if its cycle ended so. -/
theorem LoopStep.moves {t t' : ScanTask} {i : Nat} {e : Event} (h : LoopStep t i e t') :
    ∃ phase phase', t.loops[i]? = some phase ∧ phase.isAlive = true ∧ t' = t.setPhase i phase' ∧
      (phase' = .ended (.ok ()) → t.signal.state = .stopped) ∧
      ((∃ cause, phase' = .ended (.error cause)) ↔
        ∃ result, e = .endsCycle i result ∧ Fatal result) ∧
      ∀ j result, e = .endsCycle j result → j = i := by
  cases h with
  | looks h =>
    refine ⟨_, .look t.signal, h, rfl, by simp [ScanTask.look, h], LoopPhase.look_ok, ?_, by simp⟩
    simp [LoopPhase.look_ne_error]
  | @endsCycle seen result h =>
    refine ⟨_, .afterCycle seen result, h, rfl, by simp [ScanTask.endCycle, h], fun hok => ?_, ?_,
      by simp [eq_comm]⟩
    · exact absurd hok (LoopPhase.afterCycle_ne_ok seen result)
    · simp [LoopPhase.afterCycle_fatal]
  | wakes h => exact ⟨_, .looking, h, rfl, by simp [ScanTask.wake, h], by simp, by simp, by simp⟩
  | notices h hset =>
    exact ⟨_, .looking, h, LoopPhase.alive_of_notices hset, by simp [ScanTask.notice, h, hset],
      by simp, by simp, by simp⟩

theorem Call.begin_loops (t : ScanTask) (c : Call) : (c.begin t).1.loops = t.loops := by
  cases c with
  | restart =>
    unfold Call.begin
    cases t.signal.state <;> rfl
  | _ => rfl

theorem Call.begin_handle (t : ScanTask) (c : Call) : (c.begin t).1.handle = t.handle := by
  cases c with
  | restart =>
    unfold Call.begin
    cases t.signal.state <;> rfl
  | _ => rfl

/-- A call returns without a change, or with a new loop in place of one that is not alive, or with
the result of the loop that it waited for. -/
theorem Remainder.finish_cases {t t' : ScanTask} {rest : Remainder} (h : rest.finish t = some t') :
    (t' = t ∧ (rest = .start → t.isAlive = true) ∧ (rest = .join → t.held = none)) ∨
      (rest = .start ∧ t.isAlive = false ∧
        t' = { t with loops := t.loops ++ [.looking], handle := some t.loops.length }) ∨
      (rest = .join ∧ ∃ result, t.held = some (.ended result) ∧
        t' = { t with handle := none }) := by
  cases rest with
  | nothing =>
    obtain rfl := Option.some.inj h
    exact .inl ⟨rfl, by simp, by simp⟩
  | start =>
    obtain rfl := Option.some.inj h
    unfold ScanTask.ensureLoop
    by_cases halive : t.isAlive = true
    · rw [if_pos halive]
      exact .inl ⟨rfl, fun _ => halive, by simp⟩
    · rw [if_neg halive]
      exact .inr (.inl ⟨rfl, by simpa using halive, rfl⟩)
  | join =>
    unfold Remainder.finish ScanTask.wait? at h
    cases hheld : t.held with
    | none =>
      rw [hheld] at h
      obtain rfl := Option.some.inj h
      exact .inl ⟨rfl, by simp, fun _ => rfl⟩
    | some phase =>
      rw [hheld] at h
      cases phase with
      | ended result =>
        obtain rfl := Option.some.inj h
        exact .inr (.inr ⟨rfl, result, rfl, rfl⟩)
      | _ => cases h

theorem ScanTask.setPhase_loops {t : ScanTask} {i : Nat} {phase : LoopPhase}
    (h : t.loops[i]? = some phase) (phase' : LoopPhase) (j : Nat) :
    (t.setPhase i phase').loops[j]? = if i = j then some phase' else t.loops[j]? := by
  have hi : i < t.loops.length := (List.getElem?_eq_some_iff.mp h).choose
  unfold ScanTask.setPhase
  simp only [List.getElem?_set, hi, if_true]

/-! ## The loop that is held -/

/-- No loop is alive. -/
def ScanTask.Dead (t : ScanTask) : Prop :=
  ∀ (i : Nat) (phase : LoopPhase), t.loops[i]? = some phase → phase.isAlive = false

/-- Only the loop that is held can be alive, and it is the one that was started last. -/
structure ScanTask.Single (t : ScanTask) : Prop where
  held : ∀ (i : Nat) (phase : LoopPhase), t.loops[i]? = some phase → phase.isAlive = true →
    t.handle = some i
  latest : ∀ i, t.handle = some i → i + 1 = t.loops.length

namespace ScanTask.Single

variable {t t' : ScanTask}

theorem congr (h : t.Single) (hloops : t'.loops = t.loops) (hhandle : t'.handle = t.handle) :
    t'.Single := by
  constructor
  · rw [hloops, hhandle]
    exact h.held
  · rw [hloops, hhandle]
    exact h.latest

theorem of_dead (hdead : t.Dead) (hhandle : t.handle = none) : t.Single := by
  constructor
  · intro i phase hphase halive
    rw [hdead i phase hphase] at halive
    cases halive
  · intro i hi
    rw [hhandle] at hi
    cases hi

/-- If the loop that is held is not alive, no loop is. -/
theorem dead (h : t.Single) (hheld : ∀ phase, t.held = some phase → phase.isAlive = false) :
    t.Dead := by
  intro i phase hphase
  cases halive : phase.isAlive with
  | false => rfl
  | true =>
    have hsome : t.held = some phase := by
      unfold ScanTask.held
      rw [h.held i phase hphase halive]
      exact hphase
    exact halive.symm.trans (hheld phase hsome)

theorem started (hdead : t.Dead) :
    ScanTask.Single { t with loops := t.loops ++ [.looking], handle := some t.loops.length } := by
  constructor
  · intro i phase hphase halive
    rw [List.getElem?_append] at hphase
    split at hphase
    · rw [hdead i phase hphase] at halive
      cases halive
    · rename_i hi
      have hlast : i - t.loops.length < 1 := (List.getElem?_eq_some_iff.mp hphase).choose
      exact congrArg some (by omega)
  · intro i hi
    obtain rfl := Option.some.inj hi
    simp

theorem setPhase (h : t.Single) {i : Nat} {phase : LoopPhase} (hphase : t.loops[i]? = some phase)
    (halive : phase.isAlive = true) (phase' : LoopPhase) : (t.setPhase i phase').Single := by
  constructor
  · intro j other hother halive'
    rw [ScanTask.setPhase_loops hphase] at hother
    split at hother
    · rename_i heq
      rw [← heq]
      exact h.held i phase hphase halive
    · exact h.held j other hother halive'
  · intro j hj
    unfold ScanTask.setPhase
    rw [List.length_set]
    exact h.latest j hj

end ScanTask.Single

theorem ScanTask.dead_of_not_isAlive {t : ScanTask} (h : t.isAlive = false) :
    ∀ phase, t.held = some phase → phase.isAlive = false := by
  intro phase hphase
  unfold ScanTask.isAlive at h
  rwa [hphase] at h

/-- A call that returns leaves a single loop. -/
theorem Remainder.finish_single {t t' : ScanTask} {rest : Remainder} (h : t.Single)
    (hfinish : rest.finish t = some t') : t'.Single := by
  rcases Remainder.finish_cases hfinish with
    ⟨rfl, -, -⟩ | ⟨-, hdead, rfl⟩ | ⟨-, result, hheld, rfl⟩
  · exact h
  · exact .started (h.dead (ScanTask.dead_of_not_isAlive hdead))
  · apply ScanTask.Single.of_dead
    · apply h.dead
      intro phase hphase
      obtain rfl := Option.some.inj (hheld.symm.trans hphase)
      rfl
    · rfl

/-- At every moment at most one loop is alive. -/
theorem Step.single {s s' : Situation} {e : Event} (h : s.task.Single) (hstep : Step s e s') :
    s'.task.Single := by
  cases hstep with
  | begins t c => exact h.congr (c.begin_loops t) (c.begin_handle t)
  | returns hfinish => exact Remainder.finish_single h hfinish
  | givesUp t c => exact h
  | loop hloop =>
    obtain ⟨phase, phase', hphase, halive, rfl, -⟩ := hloop.moves
    exact h.setPhase hphase halive phase'

/-! ## Calls under way -/

/-- What a call under way has done already and has still to do. -/
def Call.UnderWay (state : TaskState) : Call → Remainder → Prop
  | .run, rest => rest = .start ∧ state = .running
  | .pause, rest => rest = .nothing
  | .restart, rest => rest ≠ .join ∧ state = .running
  | .stop, rest => rest = .join
  | .wait, rest => rest = .join

theorem Call.begin_underWay (t : ScanTask) (c : Call) :
    c.UnderWay (c.begin t).1.signal.state (c.begin t).2 := by
  cases c with
  | restart =>
    unfold Call.begin
    cases hstate : t.signal.state <;> simp [Call.UnderWay, ScanTask.setState, Signal.set, hstate]
  | run => exact ⟨rfl, rfl⟩
  | _ => rfl

theorem Call.start_of_underWay {state : TaskState} {c : Call} (h : c.UnderWay state .start) :
    (c = .run ∨ c = .restart) ∧ state = .running := by
  cases c with
  | run => exact ⟨.inl rfl, h.2⟩
  | restart => exact ⟨.inr rfl, h.2⟩
  | _ => cases h

/-- A call under way has done its part. -/
def Situation.Obeyed (s : Situation) : Prop :=
  ∀ c rest, s.pending = some (c, rest) → c.UnderWay s.task.signal.state rest

theorem Step.obeyed {s s' : Situation} {e : Event} (h : s.Obeyed) (hstep : Step s e s') :
    s'.Obeyed := by
  cases hstep with
  | begins t c =>
    intro c' rest hpending
    obtain ⟨rfl, rfl⟩ := Prod.mk.inj (Option.some.inj hpending)
    exact c.begin_underWay t
  | returns hfinish => exact fun c rest hpending => absurd hpending (by simp)
  | givesUp t c => exact fun c rest hpending => absurd hpending (by simp)
  | loop hloop =>
    obtain ⟨phase, phase', -, -, rfl, -⟩ := hloop.moves
    exact h

/-! ## One loop, and none after a stop -/

/-- Nothing scans, and no call is about to start a loop. -/
structure Situation.Halted (s : Situation) : Prop where
  dead : s.task.Dead
  unstarted : ∀ c, s.pending ≠ some (c, .start)

/-- A call to stop returns only once no loop is alive. -/
theorem Situation.Halted.of_stop {s s' : Situation} (hsingle : s.task.Single) (hobeyed : s.Obeyed)
    (hstep : Step s (.returns .stop) s') : s'.Halted := by
  cases hstep with
  | @returns t t' c rest hfinish =>
    obtain rfl : rest = .join := hobeyed .stop rest rfl
    constructor
    · rcases Remainder.finish_cases hfinish with
        ⟨rfl, -, hnone⟩ | ⟨hstart, -, -⟩ | ⟨-, result, hheld, rfl⟩
      · apply hsingle.dead
        intro phase hphase
        rw [hnone rfl] at hphase
        cases hphase
      · cases hstart
      · apply hsingle.dead
        intro phase hphase
        obtain rfl := Option.some.inj (hheld.symm.trans hphase)
        rfl
    · simp
  | loop hloop => cases hloop

theorem Call.start_of_begin {t : ScanTask} {c : Call} (h : (c.begin t).2 = .start) :
    c = .run ∨ c = .restart := by
  have hunderWay := c.begin_underWay t
  rw [h] at hunderWay
  exact (Call.start_of_underWay hunderWay).1

/-- As long as the task is not started again, no loop is alive and no cycle begins: only a loop that
is alive takes steps. -/
theorem Situation.Halted.step {s s' : Situation} {e : Event} (h : s.Halted) (hstep : Step s e s')
    (hrun : e ≠ .begins .run) (hrestart : e ≠ .begins .restart) :
    s'.Halted ∧ ¬ e.StartsCycle := by
  cases hstep with
  | begins t c =>
    refine ⟨⟨?_, ?_⟩, id⟩
    · unfold ScanTask.Dead
      rw [c.begin_loops t]
      exact h.dead
    · intro c' hpending
      obtain ⟨rfl, hrest⟩ := Prod.mk.inj (Option.some.inj hpending)
      rcases Call.start_of_begin hrest with rfl | rfl
      · exact hrun rfl
      · exact hrestart rfl
  | @returns t t' c rest hfinish =>
    refine ⟨⟨?_, by simp⟩, id⟩
    rcases Remainder.finish_cases hfinish with
      ⟨rfl, -, -⟩ | ⟨rfl, -, -⟩ | ⟨-, result, -, rfl⟩
    · exact h.dead
    · exact absurd rfl (h.unstarted c)
    · exact h.dead
  | givesUp t c => exact ⟨⟨h.dead, by simp⟩, id⟩
  | loop hloop =>
    obtain ⟨phase, phase', hphase, halive, -⟩ := hloop.moves
    exact absurd (halive.symm.trans (h.dead _ phase hphase)) (by simp)

namespace Course

variable {events : List Event} {s : Situation}

theorem single (h : Course events s) : s.task.Single := by
  induction h with
  | idle => exact .of_dead (fun i phase hphase => by cases hphase) rfl
  | step h hstep ih => exact hstep.single ih

theorem obeyed (h : Course events s) : s.Obeyed := by
  induction h with
  | idle => exact fun c rest hpending => by cases hpending
  | step h hstep ih => exact hstep.obeyed ih

/-- A course can be cut off anywhere. -/
theorem earlier {later : List Event} (h : Course (events ++ later) s) :
    ∃ s', Course events s' := by
  generalize hall : events ++ later = all at h
  induction h generalizing later with
  | idle =>
    obtain ⟨rfl, -⟩ := List.append_eq_nil_iff.mp hall
    exact ⟨_, .idle⟩
  | @step before s s' e h hstep ih =>
    rcases List.eq_nil_or_concat later with rfl | ⟨rest, last, rfl⟩
    · rw [List.append_nil] at hall
      exact ⟨s', hall ▸ h.step hstep⟩
    · rw [List.concat_eq_append, ← List.append_assoc] at hall
      exact ih (List.append_inj_left' hall rfl)

/-- Between a stop that has returned and the next start, no loop is alive and no cycle begins. -/
theorem halted {before after : List Event}
    (h : Course (before ++ .returns .stop :: after) s)
    (hnone : ∀ e ∈ after, e ≠ .begins .run ∧ e ≠ .begins .restart) :
    s.Halted ∧ ∀ e ∈ after, ¬ e.StartsCycle := by
  generalize hall : before ++ .returns .stop :: after = all at h
  induction h generalizing after with
  | idle => exact absurd hall (by simp)
  | @step events s s' e h hstep ih =>
    rcases List.eq_nil_or_concat after with rfl | ⟨rest, last, rfl⟩
    · obtain ⟨-, hlast⟩ := List.append_inj' hall rfl
      obtain rfl := (List.cons.inj hlast).1
      exact ⟨.of_stop h.single h.obeyed hstep, by simp⟩
    · rw [List.concat_eq_append] at hall hnone ⊢
      have hsplit : (before ++ .returns .stop :: rest) ++ [last] = events ++ [e] := by
        simpa using hall
      obtain ⟨hbefore, hlast⟩ := List.append_inj' hsplit rfl
      obtain rfl := (List.cons.inj hlast).1
      rw [List.forall_mem_append, List.forall_mem_singleton] at hnone
      obtain ⟨hhalted, hidle⟩ := ih hnone.1 hbefore
      obtain ⟨hhalted', hidle'⟩ := hhalted.step hstep hnone.2.1 hnone.2.2
      refine ⟨hhalted', ?_⟩
      rw [List.forall_mem_append, List.forall_mem_singleton]
      exact ⟨hidle, hidle'⟩

end Course

/-- **One scan loop at most, and none after a stop.**  Calls follow one another, cycles end as they
like, and the loops take their steps at any time.  At every moment at most one loop is alive, so
that at most one cycle is in progress; and from the return of a call to stop until the task is run
or restarted again no cycle begins. -/
theorem course_one_loop {events : List Event} {s : Situation} (h : Course events s) :
    (∀ (i j : Nat) (phase phase' : LoopPhase), s.task.loops[i]? = some phase →
      s.task.loops[j]? = some phase' → phase.isAlive = true → phase'.isAlive = true → i = j) ∧
    (∀ (i j seen seen' : Nat), s.task.loops[i]? = some (.scanning seen) →
      s.task.loops[j]? = some (.scanning seen') → i = j) ∧
    ∀ before after later : List Event, events = before ++ .returns .stop :: (after ++ later) →
      (∀ e ∈ after, e ≠ .begins .run ∧ e ≠ .begins .restart) →
      ∀ e ∈ after, ¬ e.StartsCycle := by
  have hsingle : ∀ (i j : Nat) (phase phase' : LoopPhase), s.task.loops[i]? = some phase →
      s.task.loops[j]? = some phase' → phase.isAlive = true → phase'.isAlive = true → i = j := by
    intro i j phase phase' hphase hphase' halive halive'
    have hi := h.single.held i phase hphase halive
    have hj := h.single.held j phase' hphase' halive'
    exact Option.some.inj (hi.symm.trans hj)
  refine ⟨hsingle, ?_, ?_⟩
  · intro i j seen seen' hi hj
    exact hsingle i j _ _ hi hj rfl rfl
  · rintro before after later rfl hnone
    have hcut : Course ((before ++ .returns .stop :: after) ++ later) s := by simpa using h
    obtain ⟨s', hcourse⟩ := hcut.earlier
    exact (hcourse.halted hnone).2

/-- A task is run and stopped while its first cycle is in progress. -/
def eventsToStop : List Event :=
  [.begins .run, .returns .run, .looks 0 (.scanning 1), .begins .stop,
    .endsCycle 0 (.error (.failed (.intermittent "later"))), .notices 0, .looks 0 (.ended (.ok ()))]

/-- A stopped task is paused and waited for. -/
def eventsWhileStopped : List Event :=
  [.begins .pause, .returns .pause, .begins .wait, .returns .wait]

/-- Between a stop and the next run no cycle begins, and then only the second loop scans. -/
theorem stoppedTask_runs_again :
    ∃ s, Course (eventsToStop ++ .returns .stop ::
        (eventsWhileStopped ++ [.begins .run, .returns .run, .looks 1 (.scanning 3)])) s ∧
      (∀ j seen, s.task.loops[j]? = some (.scanning seen) → 1 = j) ∧
      ∀ e ∈ eventsWhileStopped, ¬ e.StartsCycle := by
  have hran := (Course.idle.step (.begins _ .run)).step (.returns rfl)
  have hscans := hran.step (.loop (.looks (i := 0) rfl))
  have hended := (hscans.step (.begins _ .stop)).step
    (.loop (.endsCycle (i := 0) (.error (.failed (.intermittent "later"))) rfl))
  have hnoticed := hended.step (.loop (.notices (i := 0) rfl rfl))
  have hlooked := hnoticed.step (.loop (.looks (i := 0) rfl))
  have hstopped := hlooked.step (.returns rfl)
  have hpaused := (hstopped.step (.begins _ .pause)).step (.returns rfl)
  have hwaited := (hpaused.step (.begins _ .wait)).step (.returns rfl)
  have hagain := (hwaited.step (.begins _ .run)).step (.returns rfl)
  have hcourse := hagain.step (.loop (.looks (i := 1) rfl))
  obtain ⟨-, hscanning, hnone⟩ := course_one_loop hcourse
  refine ⟨_, hcourse, fun j seen hj => hscanning 1 j 3 seen rfl hj, ?_⟩
  exact hnone eventsToStop eventsWhileStopped _ rfl (by simp [eventsWhileStopped])

end WalletScan
