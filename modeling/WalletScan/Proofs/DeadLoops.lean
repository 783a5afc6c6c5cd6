import WalletScan.Proofs.TaskLoops

/-!
# Loops that die

A loop ends by itself when a cycle fails for good.  The state of the task is set by calls only, so
that it does not tell.

* `Told` — the events of a course tell which loops died.
* `Situation.Advertised` — a task that is running or paused was started and not stopped since.
* `course_advertised_loop` — such a task has a live loop exactly if its last loop did not die, and a
  call to restart changes nothing about that.
-/

set_option autoImplicit false

namespace WalletScan

/-! ## A loop that died -/

/-- The events tell which loops died: those of which a cycle ended with a fatal result. -/
structure Told (events : List Event) (t : ScanTask) : Prop where
  known : ∀ (i : Nat) (result : Except Halt CycleReport), .endsCycle i result ∈ events →
    i < t.loops.length
  died : ∀ (i : Nat) (phase : LoopPhase), t.loops[i]? = some phase →
    ((∃ cause, phase = .ended (.error cause)) ↔
      ∃ result, .endsCycle i result ∈ events ∧ Fatal result)

namespace Told

variable {events : List Event} {t t' : ScanTask} {e : Event}

/-- Events that are no end of a cycle tell nothing. -/
theorem behind (h : Told events t) (he : ∀ i result, e ≠ .endsCycle i result) :
    Told (events ++ [e]) t := by
  have hmem : ∀ i result, Event.endsCycle i result ∈ events ++ [e] ↔
      Event.endsCycle i result ∈ events := by
    intro i result
    simp [Ne.symm (he i result)]
  constructor
  · intro i result hmem'
    exact h.known i result ((hmem i result).mp hmem')
  · intro i phase hphase
    simp only [hmem]
    exact h.died i phase hphase

theorem congr (h : Told events t) (hloops : t'.loops = t.loops) : Told events t' := by
  constructor
  · rw [hloops]
    exact h.known
  · rw [hloops]
    exact h.died

theorem started (h : Told events t) (handle : Option Nat) :
    Told events { t with loops := t.loops ++ [.looking], handle := handle } := by
  constructor
  · intro i result hmem
    have hi := h.known i result hmem
    rw [List.length_append]
    omega
  · intro i phase hphase
    by_cases hi : i < t.loops.length
    · rw [List.getElem?_append_left hi] at hphase
      exact h.died i phase hphase
    · rw [List.getElem?_append_right (by omega)] at hphase
      obtain rfl : LoopPhase.looking = phase :=
        List.mem_singleton.mp (List.mem_of_getElem? hphase) |>.symm
      constructor
      · rintro ⟨cause, hcause⟩
        cases hcause
      · rintro ⟨result, hmem, -⟩
        exact absurd (h.known i result hmem) hi

theorem moved (h : Told events t) {i : Nat} {phase phase' : LoopPhase}
    (hphase : t.loops[i]? = some phase) (halive : phase.isAlive = true)
    (hdied : (∃ cause, phase' = .ended (.error cause)) ↔
      ∃ result, e = .endsCycle i result ∧ Fatal result)
    (hown : ∀ j result, e = .endsCycle j result → j = i) :
    Told (events ++ [e]) (t.setPhase i phase') := by
  have hi : i < t.loops.length := (List.getElem?_eq_some_iff.mp hphase).choose
  constructor
  · intro j result hmem
    unfold ScanTask.setPhase
    rw [List.length_set]
    rcases List.mem_append.mp hmem with hmem | hmem
    · exact h.known j result hmem
    · rw [hown j result (List.mem_singleton.mp hmem).symm]
      exact hi
  · intro j other hother
    rw [ScanTask.setPhase_loops hphase] at hother
    by_cases hij : i = j
    · subst hij
      rw [if_pos rfl] at hother
      obtain rfl := Option.some.inj hother
      -- the loop was alive, so that no cycle of it ended with a fatal result before
      have hbefore : ¬ ∃ result, Event.endsCycle i result ∈ events ∧ Fatal result := by
        rw [← h.died i phase hphase]
        rintro ⟨cause, rfl⟩
        cases halive
      rw [hdied]
      constructor
      · rintro ⟨result, rfl, hfatal⟩
        exact ⟨result, by simp, hfatal⟩
      · rintro ⟨result, hmem, hfatal⟩
        rcases List.mem_append.mp hmem with hmem | hmem
        · exact absurd ⟨result, hmem, hfatal⟩ hbefore
        · exact ⟨result, (List.mem_singleton.mp hmem).symm, hfatal⟩
    · rw [if_neg hij] at hother
      rw [h.died j other hother]
      constructor
      · rintro ⟨result, hmem, hfatal⟩
        exact ⟨result, List.mem_append_left _ hmem, hfatal⟩
      · rintro ⟨result, hmem, hfatal⟩
        rcases List.mem_append.mp hmem with hmem | hmem
        · exact ⟨result, hmem, hfatal⟩
        · exact absurd (hown j result (List.mem_singleton.mp hmem).symm).symm hij

end Told

theorem Step.told {events : List Event} {s s' : Situation} {e : Event} (h : Told events s.task)
    (hstep : Step s e s') : Told (events ++ [e]) s'.task := by
  cases hstep with
  | begins t c => exact (h.behind (by simp)).congr (c.begin_loops t)
  | @returns t t' c rest hfinish =>
    have hbehind : Told (events ++ [.returns c]) t := h.behind (by simp)
    rcases Remainder.finish_cases hfinish with
      ⟨rfl, -, -⟩ | ⟨-, -, rfl⟩ | ⟨-, result, -, rfl⟩
    · exact hbehind
    · exact hbehind.started _
    · exact hbehind.congr rfl
  | givesUp t c => exact h.behind (by simp)
  | loop hloop =>
    obtain ⟨phase, phase', hphase, halive, rfl, -, hdied, hown⟩ := hloop.moves
    exact h.moved hphase halive hdied hown

/-! ## A task that is running or paused -/

/-- Some loop is alive. -/
def ScanTask.HasLoop (t : ScanTask) : Prop :=
  ∃ (i : Nat) (phase : LoopPhase), t.loops[i]? = some phase ∧ phase.isAlive = true

/-- The loop that was started last did not end because of a stop. -/
def ScanTask.Unstopped (t : ScanTask) : Prop :=
  ∃ i phase, i + 1 = t.loops.length ∧ t.loops[i]? = some phase ∧ phase ≠ .ended (.ok ())

theorem ScanTask.Unstopped.moved {t : ScanTask} (h : t.Unstopped) {i : Nat}
    {phase phase' : LoopPhase} (hphase : t.loops[i]? = some phase)
    (hne : phase' ≠ .ended (.ok ())) : (t.setPhase i phase').Unstopped := by
  obtain ⟨last, other, hlast, hother, hne'⟩ := h
  have hloops := ScanTask.setPhase_loops hphase phase' last
  have hlength : last + 1 = (t.setPhase i phase').loops.length := by
    unfold ScanTask.setPhase
    rw [List.length_set]
    exact hlast
  by_cases hij : i = last
  · rw [if_pos hij] at hloops
    exact ⟨last, phase', hlength, hloops, hne⟩
  · rw [if_neg hij] at hloops
    exact ⟨last, other, hlength, hloops.trans hother, hne'⟩

theorem ScanTask.Unstopped.started (t : ScanTask) (handle : Option Nat) :
    ScanTask.Unstopped { t with loops := t.loops ++ [.looking], handle := handle } := by
  refine ⟨t.loops.length, .looking, by simp, ?_, by simp⟩
  simp

theorem ScanTask.hasLoop_of_isAlive {t : ScanTask} (h : t.isAlive = true) : t.HasLoop := by
  unfold ScanTask.isAlive at h
  cases hheld : t.held with
  | none =>
    rw [hheld] at h
    cases h
  | some phase =>
    rw [hheld] at h
    unfold ScanTask.held at hheld
    obtain ⟨i, hhandle, hphase⟩ := Option.bind_eq_some_iff.mp hheld
    exact ⟨i, phase, hphase, h⟩

/-- A loop that is alive was started last. -/
theorem ScanTask.Single.last_eq {t : ScanTask} (h : t.Single) {i : Nat} {phase : LoopPhase}
    (hphase : t.loops[i]? = some phase) (halive : phase.isAlive = true) :
    i + 1 = t.loops.length := h.latest i (h.held i phase hphase halive)

theorem ScanTask.Single.unstopped {t : ScanTask} (h : t.Single) (hloop : t.HasLoop) :
    t.Unstopped := by
  obtain ⟨i, phase, hphase, halive⟩ := hloop
  refine ⟨i, phase, h.last_eq hphase halive, hphase, ?_⟩
  rintro rfl
  cases halive

/-- Whether a state says that the task scans, or would if it were resumed. -/
def TaskState.IsActive (state : TaskState) : Prop := state = .running ∨ state = .paused

/-- A task that is running or paused was started and not stopped since, unless a call is about to
start it. -/
def Situation.Advertised (s : Situation) : Prop :=
  (∀ c, s.pending ≠ some (c, .start)) → s.task.signal.state.IsActive → s.task.Unstopped

/-- A call that starts no loop leaves the state active only if it was. -/
theorem Call.begin_active {t : ScanTask} {c : Call} (hrest : (c.begin t).2 ≠ .start)
    (hactive : (c.begin t).1.signal.state.IsActive) : t.signal.state.IsActive := by
  cases c with
  | run => exact absurd rfl hrest
  | pause =>
    by_cases hrunning : t.signal.state = .running
    · exact .inl hrunning
    · simpa [Call.begin, ScanTask.pause, Signal.pause, hrunning] using hactive
  | restart =>
    unfold Call.begin at hrest
    cases hstate : t.signal.state with
    | running => exact .inl rfl
    | paused => exact .inr rfl
    | idle => simp [hstate] at hrest
    | stopped => simp [hstate] at hrest
  | stop => simp [Call.begin, ScanTask.requestStop, Signal.set, TaskState.IsActive] at hactive
  | wait => exact hactive

theorem Step.advertised {s s' : Situation} {e : Event} (hsingle : s.task.Single)
    (h : s.Advertised) (hstep : Step s e s') : s'.Advertised := by
  cases hstep with
  | begins t c =>
    intro hpending hactive
    have hrest : (c.begin t).2 ≠ .start := fun hstart => hpending c (by rw [hstart])
    obtain ⟨i, phase, hlast, hphase, hne⟩ := h (by simp) (Call.begin_active hrest hactive)
    refine ⟨i, phase, ?_, ?_, hne⟩
    · rw [c.begin_loops t]
      exact hlast
    · rw [c.begin_loops t]
      exact hphase
  | @returns t t' c rest hfinish =>
    intro hpending hactive
    rcases Remainder.finish_cases hfinish with
      ⟨rfl, halive, -⟩ | ⟨-, -, rfl⟩ | ⟨rfl, result, -, rfl⟩
    · by_cases hstart : rest = .start
      · exact hsingle.unstopped (ScanTask.hasLoop_of_isAlive (halive hstart))
      · exact h (by simp [hstart]) hactive
    · exact .started t _
    · exact h (by simp) hactive
  | givesUp t c => exact fun _ hactive => h (by simp) hactive
  | loop hloop =>
    obtain ⟨phase, phase', hphase, halive, rfl, hok, -⟩ := hloop.moves
    intro hpending hactive
    refine (h hpending hactive).moved hphase fun hended => ?_
    have hstopped := hok hended
    rcases hactive with hrunning | hpaused
    · cases hstopped.symm.trans hrunning
    · cases hstopped.symm.trans hpaused

namespace Course

variable {events : List Event} {s : Situation}

theorem told (h : Course events s) : Told events s.task := by
  induction h with
  | idle =>
    constructor
    · intro i result hmem
      cases hmem
    · intro i phase hphase
      cases hphase
  | step h hstep ih => exact hstep.told ih

theorem advertised (h : Course events s) : s.Advertised := by
  induction h with
  | idle =>
    intro _ hactive
    rcases hactive with hrunning | hpaused
    · cases hrunning
    · cases hpaused
  | step h hstep ih => exact hstep.advertised h.single ih

/-- What was the last step of a course. -/
theorem last_step {e : Event} (h : Course (events ++ [e]) s) :
    ∃ s', Course events s' ∧ Step s' e s := by
  generalize hall : events ++ [e] = all at h
  cases h with
  | idle => exact absurd hall (by simp)
  | step h hstep =>
    obtain ⟨rfl, hlast⟩ := List.append_inj' hall rfl
    obtain rfl := (List.cons.inj hlast).1
    exact ⟨_, h, hstep⟩

/-- When a call to run returns, a loop is alive. -/
theorem ran (h : Course (events ++ [.returns .run]) s) : s.task.HasLoop := by
  obtain ⟨s', h', hstep⟩ := h.last_step
  cases hstep with
  | @returns t t' c rest hfinish =>
    obtain rfl : rest = .start := (h'.obeyed .run rest rfl).1
    rcases Remainder.finish_cases hfinish with
      ⟨rfl, halive, -⟩ | ⟨-, -, rfl⟩ | ⟨hjoin, -⟩
    · exact ScanTask.hasLoop_of_isAlive (halive rfl)
    · exact ⟨t.loops.length, .looking, by simp, rfl⟩
    · cases hjoin
  | loop hloop => cases hloop

/-- When a call to restart returns, the state is running. -/
theorem restarted (h : Course (events ++ [.returns .restart]) s) :
    s.pending = none ∧ s.task.signal.state = .running := by
  obtain ⟨s', h', hstep⟩ := h.last_step
  cases hstep with
  | @returns t t' c rest hfinish =>
    have hrunning := (h'.obeyed .restart rest rfl).2
    refine ⟨rfl, ?_⟩
    rcases Remainder.finish_cases hfinish with
      ⟨rfl, -, -⟩ | ⟨-, -, rfl⟩ | ⟨-, result, -, rfl⟩
    all_goals exact hrunning
  | loop hloop => cases hloop

/-- Between calls, a task that is running or paused has a live loop unless the last one died. -/
theorem hasLoop_iff (h : Course events s) (hpending : s.pending = none)
    (hactive : s.task.signal.state.IsActive) :
    ∃ last, last + 1 = s.task.loops.length ∧
      (s.task.HasLoop ↔ ∀ result, .endsCycle last result ∈ events → ¬ Fatal result) := by
  obtain ⟨last, phase, hlast, hphase, hne⟩ := h.advertised (by simp [hpending]) hactive
  have hdied := h.told.died last phase hphase
  refine ⟨last, hlast, ?_⟩
  constructor
  · rintro ⟨i, other, hother, halive⟩ result hmem hfatal
    have hi := h.single.last_eq hother halive
    obtain rfl : i = last := by omega
    obtain ⟨cause, rfl⟩ := hdied.mpr ⟨result, hmem, hfatal⟩
    obtain rfl := Option.some.inj (hphase.symm.trans hother)
    cases halive
  · intro hnone
    refine ⟨last, phase, hphase, ?_⟩
    cases phase with
    | ended result =>
      cases result with
      | ok => exact absurd rfl hne
      | error cause =>
        obtain ⟨result, hmem, hfatal⟩ := hdied.mp ⟨cause, rfl⟩
        exact absurd hfatal (hnone result hmem)
    | _ => rfl

end Course

/-- **A task that says it scans has a loop, unless the loop died.**  Between calls, if the state is
running or paused, a loop is alive exactly if no cycle of the loop that was started last ended with
a fatal or a ledger error or with a crash: nothing sets the state when a loop dies.  A call to run
looks at the loop and leaves one that is alive.  A call to restart looks at the state only; it
leaves the state running, and a loop under the same condition. -/
theorem course_advertised_loop {events : List Event} {s : Situation} (h : Course events s) :
    (s.pending = none → s.task.signal.state.IsActive →
      ∃ last, last + 1 = s.task.loops.length ∧
        (s.task.HasLoop ↔ ∀ result, .endsCycle last result ∈ events → ¬ Fatal result)) ∧
    (events.getLast? = some (.returns .run) → s.task.HasLoop) ∧
    (events.getLast? = some (.returns .restart) →
      s.pending = none ∧ s.task.signal.state = .running) := by
  refine ⟨h.hasLoop_iff, fun hlast => ?_, fun hlast => ?_⟩
  · obtain ⟨before, rfl⟩ := List.getLast?_eq_some_iff.mp hlast
    exact h.ran
  · obtain ⟨before, rfl⟩ := List.getLast?_eq_some_iff.mp hlast
    exact h.restarted

/-- A loop dies of a ledger error.  The task is restarted, and again after a pause, and each time it
says that it runs. -/
theorem deadLoop_restarted :
    ∃ s, Course [.begins .run, .returns .run, .looks 0 (.scanning 1),
        .endsCycle 0 (.error (.failed (.ledger .unreadable))), .begins .restart, .returns .restart,
        .begins .pause, .returns .pause, .begins .restart, .returns .restart] s ∧
      s.pending = none ∧ s.task.signal.state = .running ∧ ¬ s.task.HasLoop := by
  have hran := (Course.idle.step (.begins _ .run)).step (.returns rfl)
  have hdied := (hran.step (.loop (.looks (i := 0) rfl))).step
    (.loop (.endsCycle (i := 0) (.error (.failed (.ledger .unreadable))) rfl))
  have hrestarted := (hdied.step (.begins _ .restart)).step (.returns rfl)
  have hpaused := (hrestarted.step (.begins _ .pause)).step (.returns rfl)
  have hresumed := (hpaused.step (.begins _ .restart)).step (.returns rfl)
  obtain ⟨hloop, -, hreturned⟩ := course_advertised_loop hresumed
  obtain ⟨hpending, hrunning⟩ := hreturned rfl
  obtain ⟨last, hlast, hiff⟩ := hloop hpending (.inl hrunning)
  obtain rfl : last = 0 := Nat.succ.inj hlast
  refine ⟨_, hresumed, hpending, hrunning, fun halive => ?_⟩
  exact hiff.mp halive (.error (.failed (.ledger .unreadable))) (by simp) trivial

end WalletScan
