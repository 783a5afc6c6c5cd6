import WalletScan.Proofs.AbandonedBlocks
import WalletScan.Proofs.ChainHistory

/-!
# Rescans from a chosen height

A caller moves the cursor below a height, and the next cycle scans from there.  Nothing is known of
the ledger before: its cursor may stand anywhere, and any blocks may be cached.

* `MovedTo` — what a successful move changes, and what it keeps.
* `Resumed` — a cycle that took up a served chain above a height.
* `cycle_resumes` — a cycle from a cursor on the served chain does.
* `rescan_restarts` — a move fails and changes nothing, or else the next cycle starts where it was
  asked to.
-/

set_option autoImplicit false

namespace WalletScan

open Script
open Exchange (announced?)

variable {τ : Type} {outside : Handler τ} {N : UInt64 → Block} {tip : UInt64}

/-! ## Cycles from a stored cursor -/

/-- From a block of the served chain, or from above its tip, an advance climbs to the tip without a
rewind. -/
theorem advance_resumes (hserves : Serves outside N tip) (hN : Linked N tip) (e : Engine)
    {c : Cursor} (hpos : 1 ≤ c.height) (hhash : c.height ≤ tip → c.hash = (N c.height).hash)
    {fuel : Nat} (hfuel : tip.toNat - c.height.toNat < fuel) (l : MemoryLedger) :
    Completes outside (e.advance fuel ⟨c, 0, 0⟩) l fun r tr =>
      r.2 = none ∧ (r.1.blocks = tip.toNat - c.height.toNat ∧ r.1.forks = 0) ∧
        Climbed e N c.height tip l tr := by
  rcases (show c.height ≤ tip ∨ tip < c.height by grind) with hle | hlt
  · have hnat : c.height.toNat ≤ tip.toNat := UInt64.le_iff_toNat_le.mp hle
    refine (advance_ascends hserves hN (by grind) e (tip.toNat - c.height.toNat) l ?_ hfuel
      (.inr (hhash hle))).mono ?_
    · show tip.toNat = c.height.toNat + (tip.toNat - c.height.toNat)
      omega
    · rintro _ tr ⟨rfl, hclimbed⟩
      exact ⟨rfl, ⟨Nat.zero_add _, rfl⟩, hclimbed⟩
  · -- the chain has no block above the cursor, so the first iteration settles
    have hnat : tip.toNat < c.height.toNat := UInt64.lt_iff_toNat_lt.mp hlt
    obtain ⟨rest, rfl⟩ := Nat.exists_eq_add_one_of_ne_zero (Nat.ne_of_gt (Nat.zero_lt_of_lt hfuel))
    have hle : tip ≤ c.height := UInt64.le_of_lt hlt
    unfold Engine.advance
    refine Completes.bind (advanceOnce_settles hserves e l hle) ?_
    rintro _ _ ⟨rfl, rfl⟩
    refine Completes.done ⟨rfl, ⟨?_, rfl⟩, Climbed.here e N hle l⟩
    show 0 = tip.toNat - c.height.toNat
    omega

/-- A cycle took up a served chain above a height: it accepted the blocks from there to the tip, in
their order, and none was abandoned. -/
structure Resumed (e : Engine) (N : UInt64 → Block) (low tip : UInt64) (l : MemoryLedger)
    (report : CycleReport) (tr : List Exchange) : Prop where
  start : report.startHeight = low
  forks : report.forks = 0
  scanned : report.blocksScanned = tip.toNat - low.toNat
  uninterrupted : report.interrupted = false
  announced : readOff announced? tr = (heightsAbove low tip).map fun k => ((N k).header, false)
  extracted : ∀ k, low < k → k ≤ tip → ExtractedIn e (N k) tr
  cached : ∀ k, low < k → k ≤ tip → (l.after tr).getBlock k = some (N k)
  below : ∀ k, k ≤ low → (l.after tr).getBlock k = l.getBlock k
  cursor : (l.after tr).cursor = if low < tip then some ⟨tip, (N tip).hash⟩ else l.cursor

/-- A cycle from a cursor on the served chain, or above its tip, takes the chain up from there. -/
theorem cycle_resumes (hserves : Serves outside N tip) (hN : Linked N tip) (e : Engine)
    {l : MemoryLedger} {c : Cursor} (hcursor : l.cursor = some c) (hpos : 1 ≤ c.height)
    (hhash : c.height ≤ tip → c.hash = (N c.height).hash) {fuel : Nat}
    (hfuel : tip.toNat - c.height.toNat < fuel) :
    Completes outside (e.cycle fuel) l fun report tr => Resumed e N c.height tip l report tr := by
  unfold Engine.cycle
  refine Completes.bind (start_completes hcursor hpos) ?_
  rintro _ _ ⟨rfl, rfl⟩
  refine (cycleFrom_completes
    (P := fun p tr => (p.blocks = tip.toNat - c.height.toNat ∧ p.forks = 0) ∧
      Climbed e N c.height tip l tr)
    (advance_resumes hserves hN e hpos hhash hfuel l)
    fun p _ _ => drain_completes e p.cursor _).mono ?_
  rintro report _ ⟨p, adv, rest, rfl, ⟨⟨hblocks, hforks⟩, hclimbed⟩, hdrain, hstart, -, hscanned,
    hforked, hrun⟩
  have hafter : l.after ([⟨.ledger .getCursor, .ok (some c)⟩] ++ cycleTrace c p adv rest) =
      (l.after adv).after rest := after_cycleTrace c p adv rest l
  have hposition := after_isDrain hdrain (l.after adv)
  have hblock : ∀ k, ((l.after adv).after rest).getBlock k = (l.after adv).getBlock k :=
    fun k => getBlock_congr hposition.blocks k
  refine ⟨hstart, hforked.trans hforks, hscanned.trans hblocks, hrun, ?_, fun k hlow hhigh => ?_,
    fun k hlow hhigh => ?_, fun k hle => ?_, ?_⟩
  · rw [readOff_append, announced_cycleTrace, hclimbed.announced, announced_isDrain hdrain,
      List.append_nil]
    rfl
  · exact (hclimbed.extracted k hlow hhigh).advanced
  · rw [hafter, hblock]
    exact hclimbed.cached k hlow hhigh
  · rw [hafter, hblock]
    exact hclimbed.below k hle
  · rw [hafter, hposition.cursor]
    exact hclimbed.cursor

/-! ## Moves by hand -/

/-- A ledger whose cursor was moved: the blocks above it are dropped, and all else is as it was. -/
structure MovedTo (c : Cursor) (l l' : MemoryLedger) : Prop where
  cursor : l'.cursor = some c
  cached : ∀ k, l'.getBlock k = if k ≤ c.height then l.getBlock k else none
  unscanned : l'.unscanned = l.unscanned
  sequence : l'.sequence = l.sequence
  nextSequence : l'.nextSequence = l.nextSequence

theorem movedTo_steeredTo (c : Cursor) (l : MemoryLedger) : MovedTo c l (l.steeredTo c) :=
  ⟨rfl, getBlock_steeredTo c l, rfl, rfl, rfl⟩

section

variable {height : UInt64} {l : MemoryLedger} {t : τ}

theorem setRescanHeight_low (hlow : height ≤ 1) :
    (Engine.setRescanHeight height).run (aside outside) (l, t) =
      ⟨.error (.failed (.invalidHeight height)), (l, t), []⟩ := by
  have hmin : height ≤ minRewindHeight := hlow
  unfold Engine.setRescanHeight
  rw [if_pos hmin]
  rfl

theorem setRescanHeight_asks (hlow : 1 < height) :
    Engine.setRescanHeight height = .ask (.chain (.block (height - 1))) fun
      | .ok b => (store (.setCursor ⟨height - 1, b.hash⟩)).bind fun _ =>
          (store (.deleteBlocksAbove (height - 1))).bind fun _ => .done ⟨height - 1, b.hash⟩
      | .error cause => .halt (.failed (.chain cause)) := by
  have hmin : ¬ height ≤ minRewindHeight := UInt64.not_le.mpr hlow
  unfold Engine.setRescanHeight
  rw [if_neg hmin]
  refine congrArg (Script.ask _) (funext fun answer => ?_)
  cases answer <;> rfl

theorem setRescanHeight_refused (hlow : 1 < height) {cause : ChainError}
    (hanswer : (outside (.chain (.block (height - 1))) t).1 = .error cause) :
    ((Engine.setRescanHeight height).run (aside outside) (l, t)).result =
        .error (.failed (.chain cause)) ∧
      ((Engine.setRescanHeight height).run (aside outside) (l, t)).state.1 = l := by
  have hasked : (aside outside (.chain (.block (height - 1))) (l, t)).1 = .error cause := hanswer
  rw [setRescanHeight_asks hlow]
  simp only [run, hasked, true_and]
  rfl

theorem setRescanHeight_moves (hlow : 1 < height) {b : Block}
    (hanswer : (outside (.chain (.block (height - 1))) t).1 = .ok b) :
    ((Engine.setRescanHeight height).run (aside outside) (l, t)).result =
        .ok ⟨height - 1, b.hash⟩ ∧
      ((Engine.setRescanHeight height).run (aside outside) (l, t)).state.1 =
        l.steeredTo ⟨height - 1, b.hash⟩ := by
  have hasked : (aside outside (.chain (.block (height - 1))) (l, t)).1 = .ok b := hanswer
  rw [setRescanHeight_asks hlow]
  simp only [run, hasked]
  exact ⟨rfl, rfl⟩

end

/-- **Rescans are atomic and restart where asked.**  A move of the cursor to a height fails if the
height is too low or the block below it cannot be obtained, and then the ledger is what it was.
Otherwise the cursor is put on that block, the blocks above it are dropped, and nothing else
changes, whatever the ledger held.  The next cycle starts there and accepts the blocks from the
height to the tip, in their order, without a rewind. -/
theorem rescan_restarts (hserves : Serves outside N tip) (hN : Linked N tip) (l : MemoryLedger)
    (t : τ) (height : UInt64) :
    let moved := (Engine.setRescanHeight height).run (aside outside) (l, t)
    let answer := (outside (.chain (.block (height - 1))) t).1
    (height ≤ 1 →
      moved.result = .error (.failed (.invalidHeight height)) ∧ moved.state.1 = l) ∧
    (1 < height → ∀ cause, answer = .error cause →
      moved.result = .error (.failed (.chain cause)) ∧ moved.state.1 = l) ∧
    (1 < height → ∀ b, answer = .ok b →
      (height - 1 ≤ tip → b = N (height - 1)) ∧
      moved.result = .ok ⟨height - 1, b.hash⟩ ∧
      MovedTo ⟨height - 1, b.hash⟩ l moved.state.1 ∧
      ∀ (e : Engine) (fuel : Nat) (t' : τ), tip.toNat - (height - 1).toNat < fuel →
        ∃ report tr t'', (e.cycle fuel).run (aside outside) (moved.state.1, t') =
            ⟨.ok report, (moved.state.1.after tr, t''), tr⟩ ∧
          Resumed e N (height - 1) tip moved.state.1 report tr) := by
  refine ⟨fun hlow => ?_, fun hlow cause hanswer => setRescanHeight_refused hlow hanswer,
    fun hlow b hanswer => ?_⟩
  · simp only [setRescanHeight_low hlow, and_self]
  · obtain ⟨hresult, hstate⟩ := setRescanHeight_moves (l := l) hlow hanswer
    have hpos : 1 ≤ height - 1 := by grind
    have hserved : height - 1 ≤ tip → b = N (height - 1) := fun hle =>
      Except.ok.inj (hanswer.symm.trans (hserves.block _ t hpos hle))
    rw [hstate]
    refine ⟨hserved, hresult, movedTo_steeredTo _ l, fun e fuel t' hfuel => ?_⟩
    exact cycle_resumes hserves hN e (c := ⟨height - 1, b.hash⟩) rfl hpos
      (fun hle => congrArg Block.hash (hserved hle)) hfuel t'

/-- A cursor that was put on one chain, over blocks of another, is moved down and scans the chain
that is served from there. -/
theorem rescan_restarts_on_crossedLedger :
    let moved := (Engine.setRescanHeight 3).run
      (aside (servingOnly (Rehearsal.ChainTables.linearBlock "n") 5)) (crossedLedger, ())
    moved.result = .ok ⟨2, "n2"⟩ ∧ MovedTo ⟨2, "n2"⟩ crossedLedger moved.state.1 ∧
      ∃ report tr t'', (bareEngine.cycle 4).run
          (aside (servingOnly (Rehearsal.ChainTables.linearBlock "n") 5)) (moved.state.1, ()) =
          ⟨.ok report, (moved.state.1.after tr, t''), tr⟩ ∧
        Resumed bareEngine (Rehearsal.ChainTables.linearBlock "n") 2 5 moved.state.1 report tr := by
  obtain ⟨-, -, hmoves⟩ := rescan_restarts (servingOnly_serves _ 5) (linkedBlocks_linked "n" 5)
    crossedLedger () 3
  obtain ⟨-, hresult, hmoved, hcycle⟩ := hmoves (by decide) _ rfl
  exact ⟨hresult, hmoved, hcycle bareEngine 4 () (by decide)⟩

end WalletScan
