import WalletScan.Proofs.CycleStory
import WalletScan.Rehearsal.World

/-!
# One cycle after another

A cycle goes on from the cursor that the ledger holds.  A ledger without a cursor makes it start
just below the tip, and such a start is not written down before a block moves it.

* `Starts` — where a cycle starts, read off its first exchanges.
* `cycle_leaves` — the cursor that the next cycle resumes from.
* `next_cycle_continues` — when the next cycle starts where the one before it ended, and where it
  starts otherwise.
-/

set_option autoImplicit false

namespace WalletScan

open Script
open Exchange (notice?)

/-- The cursor that a cycle over a ledger resumes from; an empty one does not count. -/
def Ledger.resume (l : Ledger) : Option Cursor := l.cursor.filter fun c => !c.isEmpty

theorem Ledger.resume_eq_some {l : Ledger} {c : Cursor} :
    l.resume = some c ↔ l.cursor = some c ∧ c.height ≠ 0 := by
  unfold Ledger.resume Cursor.isEmpty
  rw [Option.filter_eq_some_iff]
  simp

theorem Ledger.resume_eq_none {l : Ledger} (h : ∀ c, l.cursor = some c → c.height = 0) :
    l.resume = none := by
  rw [Option.eq_none_iff_forall_ne_some]
  intro c hc
  obtain ⟨hcursor, hheight⟩ := Ledger.resume_eq_some.mp hc
  exact hheight (h c hcursor)

/-- Where a cycle with the given exchanges starts: at the cursor that it resumes from, or just below
the tip that it asks for. -/
inductive Starts (l : Ledger) (start : Cursor) (tr : List Exchange) : Prop
  | resumed (h : l.resume = some start)
  | bootstrapped {stored : Option Cursor} {tip : UInt64} {later : List Exchange}
    (h : l.resume = none) (hstart : start.height = lowered tip 1)
    (htrace : tr = ⟨.ledger .getCursor, .ok stored⟩ :: ⟨.chain .tip, .ok tip⟩ :: later)

theorem getCursor_answer {f : FaultyLedger} {stored : Option Cursor}
    (h : .ok stored = (f.perform .getCursor).1) : f.ledger.cursor = stored := by
  have hanswer := (FaultyLedger.perform_ok h.symm).1
  cases hledger : f.ledger with
  | memory l =>
    rw [hledger] at hanswer
    exact Except.ok.inj hanswer
  | rows l =>
    rw [hledger] at hanswer
    exact Except.ok.inj hanswer

theorem Begun.starts {f : FaultyLedger} {start : Cursor} {opening rest : List Exchange}
    (h : Begun start opening) (hanswered : Answered FaultyLedger.perform f (opening ++ rest)) :
    Starts f.ledger start (opening ++ rest) := by
  cases h with
  | resumed hstart =>
    have hcursor := getCursor_answer hanswered.1
    exact .resumed (Ledger.resume_eq_some.mpr ⟨hcursor, hstart⟩)
  | bootstrapped hstored hstart =>
    have hcursor := getCursor_answer hanswered.1
    refine .bootstrapped (Ledger.resume_eq_none ?_) hstart rfl
    rwa [hcursor]

/-- A story that tells something ends above height zero. -/
theorem Story.height_ne {p q : Engine.Progress} {told : List Notice} (h : Story p told q)
    (htold : told ≠ []) : q.cursor.height ≠ 0 := by
  cases h with
  | opening => exact absurd rfl htold
  | @progress told q header h hroom hheight =>
    show header.height ≠ 0
    grind
  | @fork told q rewound abandoned h habandoned hheight =>
    show rewound.height ≠ 0
    rw [hheight]
    exact below_ne_zero q.cursor

theorem resumes_after {l l' : Ledger} {start final : Cursor} {tr : List Exchange} {moves : Nat}
    (hstarts : Starts l start tr) (hstill : moves = 0 → final = start)
    (hcursor : l'.cursor = if moves = 0 then l.cursor else some final) :
    l'.resume = if final.height ≠ 0 ∧ (l.resume.isSome ∨ 0 < moves) then some final else none := by
  rcases Nat.eq_zero_or_pos moves with rfl | hmoved
  · have hkept : l'.resume = l.resume := by
      unfold Ledger.resume
      rw [hcursor, if_pos rfl]
    rw [hkept, hstill rfl]
    cases hstarts with
    | resumed h =>
      have hheight := (Ledger.resume_eq_some.mp h).2
      rw [h, if_pos ⟨hheight, .inl rfl⟩]
    | bootstrapped h => simp [h]
  · rw [if_neg (Nat.ne_of_gt hmoved)] at hcursor
    by_cases hheight : final.height = 0
    · rw [if_neg (fun h => h.1 hheight), Ledger.resume_eq_none]
      intro c hc
      rw [← Option.some.inj (hcursor.symm.trans hc), hheight]
    · rw [if_pos ⟨hheight, .inr hmoved⟩]
      exact Ledger.resume_eq_some.mpr ⟨hcursor, hheight⟩

section

variable {τ : Type} {e : Engine} {fuel : Nat} {outside : Handler τ} {f : FaultyLedger} {t : τ}
  {report : CycleReport} {s : FaultyLedger × τ} {tr : List Exchange}

/-- **What a cycle leaves to the next one.**  A cycle that finds its start leaves the cursor that it
ends with, if it resumed from one or moved it, and none otherwise. -/
theorem cycle_leaves
    (hrun : (e.cycle fuel).run (amid FaultyLedger.perform outside) (f, t) = ⟨.ok report, s, tr⟩)
    {height : UInt64} (hstarted : .reported (.started height) ∈ readOff notice? tr) :
    ∃ start final : Cursor, report.startHeight = start.height ∧
      report.finalHeight = final.height ∧ Starts f.ledger start tr ∧
      (s.1.ledger.resume = if final.height ≠ 0 ∧
          (f.ledger.resume.isSome ∨ 0 < report.blocksScanned + report.forks)
        then some final else none) ∧
      (Truthful outside → f.ledger.Shelved →
        f.ledger.resume.isSome ∨ 0 < report.blocksScanned + report.forks → final.height ≠ 0) := by
  have hwalks := (cycle_walks e fuel).run (amid FaultyLedger.perform outside) (f, t)
  have hanswered : Answered FaultyLedger.perform f
      ((e.cycle fuel).run (amid FaultyLedger.perform outside) (f, t)).trace :=
    answered_run (e.cycle fuel) f t
  have hcursor := cursor_run (e.cycle fuel) outside f t
  have hheights : Truthful outside → f.ledger.Shelved → ∀ x ∈ tr, x.AtHeight := by
    intro htruthful hshelved
    have h := answers_atHeight htruthful (e.cycle fuel) hshelved t
    rwa [hrun] at h
  rw [hrun] at hwalks hanswered hcursor
  rcases hwalks report rfl with hsilent | ⟨start, final, opening, way, ending, closing, rfl, h⟩
  · rw [notices_silent hsilent] at hstarted
    cases hstarted
  · have hstarts := h.begun.starts hanswered
    have hpersisted := hcursor.trans (h.cursor_eq _)
    refine ⟨start, final.cursor, h.start_eq, h.final_eq, hstarts, ?_, ?_⟩
    · refine resumes_after hstarts (fun hstill => ?_) hpersisted
      rw [h.carries.still (h.still_iff.mpr hstill)]
    · intro htruthful hshelved hheld
      rcases Nat.eq_zero_or_pos (report.blocksScanned + report.forks) with hstill | hmoved
      · obtain ⟨c, hc⟩ := Option.isSome_iff_exists.mp (hheld.resolve_right (by omega))
        rw [h.carries.still (h.still_iff.mpr hstill)]
        cases hstarts with
        | resumed hresume => exact (Ledger.resume_eq_some.mp hresume).2
        | bootstrapped hnone => cases hnone.symm.trans hc
      · have hway : ∀ x ∈ way, x.AtHeight :=
          fun x hx => hheights htruthful hshelved x (by simp [hx])
        refine (h.carries.story hway).height_ne fun hstill => ?_
        have hzero := h.still_iff.mp hstill
        omega

/-- **The next cycle goes on where the last one ended.**  Let two cycles over a ledger, with nothing
in between that touches it, both find a start, in whatever surroundings and with whatever failures.
If the first one resumed from a cursor of the ledger or moved it, and does not end at height zero,
then the second one starts at the height where the first one ended.  Otherwise no cursor is held,
and the second one starts just below the tip that is answered to it.  Where blocks have the heights
asked for, a cycle that resumed or moved does not end at height zero. -/
theorem next_cycle_continues {τ' : Type} {e' : Engine} {fuel' : Nat} {outside' : Handler τ'}
    {t' : τ'} {plan : List (Option LedgerError)} {report' : CycleReport} {s' : FaultyLedger × τ'}
    {tr' : List Exchange} {height height' : UInt64}
    (hrun : (e.cycle fuel).run (amid FaultyLedger.perform outside) (f, t) = ⟨.ok report, s, tr⟩)
    (hstarted : .reported (.started height) ∈ readOff notice? tr)
    (hrun' : (e'.cycle fuel').run (amid FaultyLedger.perform outside') (⟨s.1.ledger, plan⟩, t') =
      ⟨.ok report', s', tr'⟩)
    (hstarted' : .reported (.started height') ∈ readOff notice? tr') :
    (report.finalHeight ≠ 0 ∧ (f.ledger.resume.isSome ∨ 0 < report.blocksScanned + report.forks) →
      report'.startHeight = report.finalHeight) ∧
    (¬ (report.finalHeight ≠ 0 ∧
        (f.ledger.resume.isSome ∨ 0 < report.blocksScanned + report.forks)) →
      ∃ stored tip later,
        tr' = ⟨.ledger .getCursor, .ok stored⟩ :: ⟨.chain .tip, .ok tip⟩ :: later ∧
        report'.startHeight = lowered tip 1) ∧
    (Truthful outside → f.ledger.Shelved →
      f.ledger.resume.isSome ∨ 0 < report.blocksScanned + report.forks →
        report.finalHeight ≠ 0) := by
  obtain ⟨start, final, -, hfinal, -, hleft, hpositive⟩ := cycle_leaves hrun hstarted
  obtain ⟨start', -, hstart', -, hstarts, -, -⟩ := cycle_leaves hrun' hstarted'
  rw [hfinal, hstart']
  refine ⟨fun hheld => ?_, fun hheld => ?_, hpositive⟩
  · rw [if_pos hheld] at hleft
    cases hstarts with
    | resumed hresume => rw [Option.some.inj (hresume.symm.trans hleft)]
    | bootstrapped hnone => cases hnone.symm.trans hleft
  · rw [if_neg hheld] at hleft
    cases hstarts with
    | resumed hresume => cases hleft.symm.trans hresume
    | bootstrapped hnone hstart htrace => exact ⟨_, _, _, htrace, hstart⟩

end

/-- A cycle that moves the cursor, and one after it over a chain that has grown. -/
theorem visitedLedger_continues :
    let first := (bareEngine.cycle 4).run (amid FaultyLedger.perform
      (servingOnly (Rehearsal.ChainTables.linearBlock "n") 4)) (⟨.memory visitedLedger, []⟩, ())
    let second := (bareEngine.cycle 3).run (amid FaultyLedger.perform
      (servingOnly (Rehearsal.ChainTables.linearBlock "n") 6)) (⟨first.state.1.ledger, []⟩, ())
    ∃ report report', first.result = .ok report ∧ second.result = .ok report' ∧
      report.finalHeight = 4 ∧ report'.finalHeight = 6 ∧
      report'.startHeight = report.finalHeight := by
  intro first second
  have hfirst : first.result = .ok ⟨3, 4, 2, 1, 0, 0, false⟩ := by decide +kernel
  have hsecond : second.result = .ok ⟨4, 6, 2, 0, 0, 0, false⟩ := by decide +kernel
  have hrun : first = ⟨.ok ⟨3, 4, 2, 1, 0, 0, false⟩, first.state, first.trace⟩ := by rw [← hfirst]
  have hrun' : second = ⟨.ok ⟨4, 6, 2, 0, 0, 0, false⟩, second.state, second.trace⟩ := by
    rw [← hsecond]
  have hstarted : .reported (.started 3) ∈ readOff notice? first.trace := by decide +kernel
  have hstarted' : .reported (.started 4) ∈ readOff notice? second.trace := by decide +kernel
  obtain ⟨hcontinues, -, -⟩ := next_cycle_continues hrun hstarted hrun' hstarted'
  exact ⟨_, _, hfirst, hsecond, rfl, rfl, hcontinues ⟨by decide, .inr (by decide)⟩⟩

open Rehearsal

/-- A chain source that serves the blocks up to a height and reports a tip. -/
def worldUpTo (last tip : UInt64) : World where
  chain := { ChainTables.empty.addLinear 1 last "h" with tips := [.ok tip] }
  ledger := .memory .empty
  faults := []
  sinks := []
  channel := none
  hooks := []
  task := .idle
  attached := false

/-- A cycle that starts below the tip and finds no further block writes nothing down.  When the
chain has grown, the next one starts below the new tip, and the blocks between are never scanned. -/
theorem stalled_start_leaves_gap :
    let first := (bareEngine.cycle 1).run (amid FaultyLedger.perform World.handle)
      (⟨.memory .empty, []⟩, worldUpTo 2 3)
    let second := (bareEngine.cycle 2).run (amid FaultyLedger.perform World.handle)
      (first.state.1, worldUpTo 6 6)
    ∃ report report', first.result = .ok report ∧ second.result = .ok report' ∧
      .reported (.started 2) ∈ readOff notice? first.trace ∧
      .reported (.started 5) ∈ readOff notice? second.trace ∧
      report'.startHeight ≠ report.finalHeight := by
  refine ⟨⟨2, 2, 0, 0, 0, 0, false⟩, ⟨5, 6, 1, 0, 0, 0, false⟩, ?_, ?_, ?_, ?_, by decide⟩
  all_goals decide +kernel

end WalletScan
