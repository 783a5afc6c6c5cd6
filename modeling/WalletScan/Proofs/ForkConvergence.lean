import WalletScan.Proofs.ServedChains
import WalletScan.Rehearsal.Chain

/-!
# A fork of any depth converges

The cursor stands on a cached branch that left the served chain at some height.  A cycle walks the
cursor down the branch, one block at a time, and then up the served chain to its tip.

* `cycle_converges` — how many blocks are abandoned and scanned, where the cursor ends, what the
  cache holds, and what the observers hear, for branches and chains of any length.

Specification: section 8, fork convergence.
-/

set_option autoImplicit false

namespace WalletScan

open Script
open Exchange (announced?)

variable {τ : Type} {outside : Handler τ} {N O : UInt64 → Block} {tip : UInt64}

theorem start_completes {l : MemoryLedger} {c : Cursor} (hcursor : l.cursor = some c)
    (hpos : 1 ≤ c.height) :
    Completes outside Engine.start l fun r tr =>
      r = .ok c ∧ tr = [⟨.ledger .getCursor, .ok (some c)⟩] := by
  have hkept : (l.perform .getCursor).1.filter (fun c => !c.isEmpty) = some c := by
    have hnonempty : (!c.isEmpty) = true := by
      unfold Cursor.isEmpty
      rw [Bool.not_eq_true', beq_eq_false_iff_ne]
      grind
    show l.cursor.filter _ = some c
    rw [hcursor, Option.filter_some, if_pos hnonempty]
  unfold Engine.start
  refine Completes.bind (Completes.store _ l) ?_
  rintro _ _ ⟨rfl, rfl⟩
  simp only [hkept]
  refine Completes.done ⟨rfl, ?_⟩
  show [(⟨.ledger .getCursor, .ok l.cursor⟩ : Exchange)] ++ [] = _
  rw [hcursor, List.append_nil]

/-- An advance went down a cached branch to a height and up the served chain from there. -/
def Turned (e : Engine) (O N : UInt64 → Block) (a c tip : UInt64) (l : MemoryLedger)
    (p : Engine.Progress) (tr : List Exchange) : Prop :=
  p = ⟨⟨tip, (N tip).hash⟩, tip.toNat - a.toNat, c.toNat - a.toNat⟩ ∧
    ∃ tr₁ tr₂, tr = tr₁ ++ tr₂ ∧ Descended O a c l tr₁ ∧ Climbed e N a tip (l.after tr₁) tr₂

/-- From a cached branch that leaves the served chain at a height, an advance goes down to that
height and up to the tip. -/
theorem advance_converges (hserves : Serves outside N tip) (hN : Linked N tip) (e : Engine)
    {a c : UInt64} {l : MemoryLedger} {fuel : Nat} (ha : 1 ≤ a) (hac : a ≤ c) (hc : c < tip)
    (hcached : ∀ h, a ≤ h → h ≤ c → l.getBlock h = some (O h) ∧ (O h).height = h)
    (hmeet : (O a).hash = (N a).hash) (hapart : ∀ h, a < h → h ≤ c → (O h).hash ≠ (N h).hash)
    (hfuel : (c.toNat - a.toNat) + (tip.toNat - a.toNat) < fuel) :
    Completes outside (e.advance fuel ⟨⟨c, (O c).hash⟩, 0, 0⟩) l fun r tr =>
      r.2 = none ∧ Turned e O N a c tip l r.1 tr := by
  have hnat : a.toNat ≤ c.toNat := UInt64.le_iff_toNat_le.mp hac
  have hnat' : c.toNat < tip.toNat := UInt64.lt_iff_toNat_lt.mp hc
  obtain ⟨rest, rfl⟩ : ∃ rest, fuel = rest + (c.toNat - a.toNat) :=
    ⟨fuel - (c.toNat - a.toNat), by omega⟩
  refine advance_descends hserves hN e ha (c.toNat - a.toNat) l ?_ hc rfl hcached hapart ?_
  · show c.toNat = a.toNat + (c.toNat - a.toNat)
    omega
  · intro tr hdescended
    refine (advance_ascends hserves hN (by grind) e (tip.toNat - a.toNat) (l.after tr) ?_ ?_
      (.inr hmeet)).mono ?_
    · show tip.toNat = a.toNat + (tip.toNat - a.toNat)
      omega
    · omega
    · rintro _ tr' ⟨rfl, hclimbed⟩
      refine ⟨rfl, ?_, tr, tr', rfl, hdescended, hclimbed⟩
      rw [Nat.zero_add, Nat.zero_add]

/-- **Forks converge.**  The memory ledger holds a cursor on a branch and caches it down to a block
that the served chain has too; above that block the two have different hashes.  A cycle then ends on
the served tip, having abandoned every block of the branch and scanned every block above the common
one; these are cached, and the observers hear of both, in this order. -/
theorem cycle_converges (hserves : Serves outside N tip) (hN : Linked N tip) (e : Engine)
    {a c : UInt64} (ha : 1 ≤ a) (hac : a ≤ c) (hc : c < tip) (l : MemoryLedger) (t : τ)
    (hcursor : l.cursor = some ⟨c, (O c).hash⟩)
    (hcached : ∀ h, a ≤ h → h ≤ c → l.getBlock h = some (O h) ∧ (O h).height = h)
    (hmeet : (O a).hash = (N a).hash) (hapart : ∀ h, a < h → h ≤ c → (O h).hash ≠ (N h).hash)
    (fuel : Nat) (hfuel : (c.toNat - a.toNat) + (tip.toNat - a.toNat) < fuel) :
    ∃ report l' t' tr, (e.cycle fuel).run (aside outside) (l, t) = ⟨.ok report, (l', t'), tr⟩ ∧
      report.forks = c.toNat - a.toNat ∧ report.blocksScanned = tip.toNat - a.toNat ∧
      report.finalHeight = tip ∧ report.interrupted = false ∧
      l'.cursor = some ⟨tip, (N tip).hash⟩ ∧
      (∀ h, a < h → h ≤ tip → l'.getBlock h = some (N h)) ∧
      readOff announced? tr = ((heightsAbove a c).reverse.map fun h => ((O h).header, true)) ++
        (heightsAbove a tip).map fun h => ((N h).header, false) := by
  have hcycle : Completes outside (e.cycle fuel) l fun report tr =>
      (report.forks = c.toNat - a.toNat ∧ report.blocksScanned = tip.toNat - a.toNat ∧
        report.finalHeight = tip ∧ report.interrupted = false) ∧
      (l.after tr).cursor = some ⟨tip, (N tip).hash⟩ ∧
      (∀ h, a < h → h ≤ tip → (l.after tr).getBlock h = some (N h)) ∧
      readOff announced? tr = ((heightsAbove a c).reverse.map fun h => ((O h).header, true)) ++
        (heightsAbove a tip).map fun h => ((N h).header, false) := by
    unfold Engine.cycle
    refine Completes.bind (start_completes hcursor (by grind)) ?_
    rintro _ _ ⟨rfl, rfl⟩
    refine (cycleFrom_completes
      (advance_converges hserves hN e ha hac hc hcached hmeet hapart hfuel)
      fun p tr _ => drain_completes e _ _).mono ?_
    rintro report _ ⟨_, _, rest, rfl, ⟨rfl, down, up, rfl, hdown, hup⟩, hdrain, -, hfinal, hblocks,
      hforks, hrun⟩
    have hafter : l.after ([⟨.ledger .getCursor, .ok (some ⟨c, (O c).hash⟩)⟩] ++
        cycleTrace ⟨c, (O c).hash⟩ ⟨⟨tip, (N tip).hash⟩, tip.toNat - a.toNat, c.toNat - a.toNat⟩
          (down ++ up) rest) = ((l.after down).after up).after rest := by
      rw [← MemoryLedger.after_append l down up]
      exact after_cycleTrace ⟨c, (O c).hash⟩
        ⟨⟨tip, (N tip).hash⟩, tip.toNat - a.toNat, c.toNat - a.toNat⟩ (down ++ up) rest l
    have hposition := after_isDrain hdrain ((l.after down).after up)
    refine ⟨⟨hforks, hblocks, hfinal, hrun⟩, ?_, fun h hlow hhigh => ?_, ?_⟩
    · rw [hafter, hposition.cursor, hup.cursor, if_pos (by grind)]
    · rw [hafter, ← hup.cached h hlow hhigh]
      unfold MemoryLedger.getBlock
      rw [hposition.blocks]
    · rw [readOff_append, announced_cycleTrace, readOff_append, hdown.announced,
        hup.announced, announced_isDrain hdrain, List.append_nil]
      rfl
  obtain ⟨report, tr, t', hrun, ⟨hforks, hblocks, hfinal, hint⟩, hend⟩ := hcycle t
  exact ⟨report, l.after tr, t', tr, hrun, hforks, hblocks, hfinal, hint, hend⟩

/-! ## A fork of two blocks -/

/-- A chain source that serves one chain and knows no transaction, with observers that live. -/
def servingOnly (N : UInt64 → Block) (tip : UInt64) : Handler Unit
  | .chain .tip, _ => (.ok tip, ())
  | .chain (.block h), _ => (.ok (N h), ())
  | .chain (.transaction txid), _ => (.failed (.transactionNotFound txid), ())
  | .chain .mempool, _ => (.ok [], ())
  | .chain (.mempoolTransaction txid), _ => (.error (.transactionNotFound txid), ())
  | .chain (.fee _ _), _ => (.ok 0, ())
  | .chain (.balance _ _), _ => (.ok 0, ())
  | .chain (.history _), _ => (.ok [], ())
  | .ledger _, _ => (.error (.unexpected "no ledger"), ())
  | .deliver _ _ _, _ => (.ok (), ())
  | .announce _ _, _ => (.ok (), ())
  | .report _, _ => ((), ())
  | .taskState, _ => (.running, ())

theorem servingOnly_serves (N : UInt64 → Block) (tip : UInt64) :
    Serves (servingOnly N tip) N tip :=
  ⟨fun _ => rfl, fun _ => rfl, fun _ _ _ _ => rfl, fun _ _ _ => rfl⟩

theorem linkedBlocks_linked (lead : String) (tip : UInt64) :
    Linked (Rehearsal.ChainTables.linearBlock lead) tip := by
  refine ⟨fun h _ _ => rfl, fun h hpos hlt => ?_⟩
  have hsucc : (h + 1).toNat = h.toNat + 1 := toNat_succ hlt
  have hlowered : lowered (h + 1) 1 = h := by
    unfold lowered
    rw [if_pos (by grind)]
    grind
  show lead ++ toString (lowered (h + 1) 1).toNat = lead ++ toString h.toNat
  rw [hlowered]

/-- A branch that shares block 1 with another chain and leaves it above. -/
def branch (h : UInt64) : Block :=
  if h = 1 then Rehearsal.ChainTables.linearBlock "n" 1 else
    Rehearsal.ChainTables.linearBlock "o" h

/-- A ledger whose cursor stands on the third block of the branch. -/
def branchLedger : MemoryLedger :=
  { MemoryLedger.empty with
    cursor := some ⟨3, "o3"⟩
    blocks := ⟨[(3, branch 3), (2, branch 2), (1, branch 1)], by decide⟩ }

theorem cycle_converges_from_branch :
    ∃ report l' t' tr,
      (bareEngine.cycle 6).run (aside (servingOnly (Rehearsal.ChainTables.linearBlock "n") 4))
        (branchLedger, ()) = ⟨.ok report, (l', t'), tr⟩ ∧
      report.forks = 2 ∧ report.blocksScanned = 3 ∧ report.finalHeight = 4 ∧
      report.interrupted = false ∧ l'.cursor = some ⟨4, "n4"⟩ ∧
      (∀ h, 1 < h → h ≤ 4 → l'.getBlock h = some (Rehearsal.ChainTables.linearBlock "n" h)) ∧
      readOff announced? tr = ((heightsAbove 1 3).reverse.map fun h => ((branch h).header, true)) ++
        (heightsAbove 1 4).map fun h =>
          ((Rehearsal.ChainTables.linearBlock "n" h).header, false) := by
  have hheights : ∀ h : UInt64, 1 ≤ h → h ≤ 3 → h = 1 ∨ h = 2 ∨ h = 3 := by grind
  refine cycle_converges (O := branch) (servingOnly_serves _ 4) (linkedBlocks_linked "n" 4) _
    (a := 1) (c := 3) (by decide) (by decide) (by decide) branchLedger () (by decide) ?_ (by decide)
    ?_ 6 (by decide)
  · intro h hlow hhigh
    rcases hheights h hlow hhigh with rfl | rfl | rfl <;> exact ⟨rfl, rfl⟩
  · intro h hlow hhigh
    rcases hheights h (by grind) hhigh with rfl | rfl | rfl
    · exact absurd hlow (by decide)
    · decide
    · decide

end WalletScan
