import WalletScan.Proofs.ServedDrains
import WalletScan.Proofs.ForkConvergence

/-!
# Chains that replace one another

From an empty ledger in memory, cycles follow one another; between two of them the chain source may
switch to any longer chain.

* `advance_switches` — an advance turns at a height that both chains share, or below all that is
  cached, and climbs the new chain from there.
* `canonical_blocks_extracted` — when a cycle ends, every block of the current chain above the first
  start was extracted, unless the chain was replaced down to height 1.  A rewind off height 1 puts
  the cursor on the new block 1 without extracting it, and only a rescan makes up for that.
-/

set_option autoImplicit false

namespace WalletScan

open Script

section

variable {τ : Type} {outside : Handler τ} {N O : UInt64 → Block} {tip c m : UInt64}

/-! ## Where two chains part -/

/-- Below a block that two chains share, they share every block. -/
theorem shared_below (hO : Linked O c) (hN : Linked N tip)
    (hidentity : ∀ h, 1 ≤ h → h ≤ c → h ≤ tip → (O h).hash = (N h).hash → N h = O h)
    {a : UInt64} (hac : a ≤ c) (hat : a ≤ tip) (hmeet : (O a).hash = (N a).hash) :
    ∀ h, 1 ≤ h → h ≤ a → N h = O h := by
  suffices hdown : ∀ (n : Nat) (h : UInt64), 1 ≤ h → a.toNat = h.toNat + n → N h = O h by
    intro h hpos hle
    have hnat : h.toNat ≤ a.toNat := UInt64.le_iff_toNat_le.mp hle
    exact hdown (a.toNat - h.toNat) h hpos (by omega)
  intro n
  induction n with
  | zero =>
    intro h hpos hn
    obtain rfl : a = h := UInt64.toNat_inj.mp hn
    exact hidentity a hpos hac hat hmeet
  | succ n ih =>
    intro h hpos hn
    have hlt : h < a := UInt64.lt_iff_toNat_lt.mpr (by omega)
    have hsucc : (h + 1).toNat = h.toNat + 1 := toNat_succ hlt
    have habove : N (h + 1) = O (h + 1) := ih (h + 1) (by grind) (by omega)
    have hhash : (O h).hash = (N h).hash := by
      rw [← hO.link h hpos (by grind), ← hN.link h hpos (by grind), habove]
    exact hidentity h hpos (by grind) (by grind) hhash

/-- There is a highest height with a property, or none has it. -/
theorem highest_or_none (P : UInt64 → Prop) (hmc : m ≤ c) :
    (∃ a, m ≤ a ∧ a ≤ c ∧ P a ∧ ∀ h, a < h → h ≤ c → ¬ P h) ∨ ∀ h, m ≤ h → h ≤ c → ¬ P h := by
  suffices hup : ∀ (n : Nat) (c : UInt64), c.toNat = m.toNat + n →
      (∃ a, m ≤ a ∧ a ≤ c ∧ P a ∧ ∀ h, a < h → h ≤ c → ¬ P h) ∨
        ∀ h, m ≤ h → h ≤ c → ¬ P h by
    have hnat : m.toNat ≤ c.toNat := UInt64.le_iff_toNat_le.mp hmc
    exact hup (c.toNat - m.toNat) c (by omega)
  intro n
  induction n with
  | zero =>
    intro c hn
    obtain rfl : c = m := UInt64.toNat_inj.mp hn
    by_cases hP : P c
    · exact .inl ⟨c, by grind, by grind, hP, by grind⟩
    · refine .inr fun h hlow hhigh => ?_
      obtain rfl : c = h := by grind
      exact hP
  | succ n ih =>
    intro c hn
    have hlt : m < c := UInt64.lt_iff_toNat_lt.mpr (by omega)
    have hpred : (c - 1).toNat = c.toNat - 1 := toNat_pred (by grind)
    by_cases hP : P c
    · exact .inl ⟨c, by grind, by grind, hP, by grind⟩
    · have hstep : ∀ h, h ≤ c → h ≤ c - 1 ∨ h = c := by grind
      rcases ih (c - 1) (by omega) with ⟨a, hlow, hhigh, ha, habove⟩ | hnone
      · refine .inl ⟨a, hlow, by grind, ha, fun h hah hhc => ?_⟩
        rcases hstep h hhc with hle | rfl
        · exact habove h hah hle
        · exact hP
      · refine .inr fun h hlow hhc => ?_
        rcases hstep h hhc with hle | rfl
        · exact hnone h hlow hle
        · exact hP

/-! ## One advance -/

/-- A ledger stands on the tip of a chain and caches exactly the blocks from a height on. -/
structure Follows (N : UInt64 → Block) (low tip : UInt64) (l : MemoryLedger) : Prop where
  cursor : l.cursor = some ⟨tip, (N tip).hash⟩
  cached : ∀ h, low ≤ h → h ≤ tip → l.getBlock h = some (N h)
  uncached : ∀ h, 1 ≤ h → h < low → l.getBlock h = none

/-- An advance turned on a height that both chains share, or it went one block below all that is
cached, or, from height 1, to height 1 again, where it fetched the new block and deleted the
records. -/
def TurnedOn (O N : UInt64 → Block) (m low : UInt64) (l : MemoryLedger) (tr : List Exchange) :
    Prop :=
  (m ≤ low ∧ ∀ h, 1 ≤ h → h ≤ low → N h = O h) ∨
    (low = max (lowered m 1) minRewindHeight ∧
      (⟨.chain (.block low), .ok (N low)⟩ : Exchange) ∈ tr ∧
      (m = 1 → RecordsIn (· ≠ 1) (l.after tr)))

/-- What an advance leaves behind that turned on a height and climbed a chain from there. -/
structure Switched (e : Engine) (O N : UInt64 → Block) (m c low tip : UInt64) (l : MemoryLedger)
    (tr : List Exchange) : Prop where
  pos : 1 ≤ low
  le : low ≤ c
  cursor : (l.after tr).cursor = some ⟨tip, (N tip).hash⟩
  cached : ∀ h, low ≤ h → h ≤ tip → (l.after tr).getBlock h = some (N h)
  below : ∀ h, h < low → (l.after tr).getBlock h = l.getBlock h
  extracted : ∀ h, low < h → h ≤ tip → ExtractedIn e (N h) tr
  others : ∀ b, (∀ h, low < h → h ≤ tip → N h ≠ b) → (neverRun b).Holds tr none
  saves : SavesOnly (fun h => low < h ∧ h ≤ tip) tr
  turned : TurnedOn O N m low l tr

theorem Switched.of_climbed {e : Engine} {low : UInt64} {l : MemoryLedger}
    {down up : List Exchange} (hidle : ∀ x ∈ down, ¬ x.IsWork) (hpos : 1 ≤ low) (hlc : low ≤ c)
    (hcursor : low = tip → (l.after down).cursor = some ⟨tip, (N tip).hash⟩)
    (hstored : (l.after down).getBlock low = some (N low))
    (hbelow : ∀ h, h < low → (l.after down).getBlock h = l.getBlock h)
    (hturned : TurnedOn O N m low l down) (hle : low ≤ tip)
    (hup : Climbed e N low tip (l.after down) up) :
    Switched e O N m c low tip l (down ++ up) := by
  have hafter : l.after (down ++ up) = (l.after down).after up := l.after_append down up
  refine ⟨hpos, hlc, ?_, fun h hlow hhigh => ?_, fun h hh => ?_, fun h hlow hhigh => ?_,
    fun b hb => ?_, ?_, ?_⟩
  · rw [hafter, hup.cursor]
    split
    · rfl
    · exact hcursor (by grind)
  · rw [hafter]
    rcases (show h = low ∨ low < h by grind) with rfl | hlt
    · rw [hup.below h (by grind), hstored]
    · exact hup.cached h hlt hhigh
  · rw [hafter, hup.below h (by grind), hbelow h hh]
  · exact (hup.extracted h hlow hhigh).behind down
  · exact (neverRun b).append (neverRun_of_idle hidle) (hup.others b hb)
  · exact (savesOnly_of_idle hidle).append hup.saves
  · refine hturned.imp id ?_
    rintro ⟨hlow, hserved, hcleared⟩
    refine ⟨hlow, List.mem_append_left _ hserved, fun hm => ?_⟩
    rw [hafter]
    exact (hcleared hm).after (hup.saves.mono fun h hh => by grind)

theorem rewind_lowest_le (hm : 1 ≤ m) :
    1 ≤ max (lowered m 1) minRewindHeight ∧ max (lowered m 1) minRewindHeight ≤ m := by
  rcases rewind_lowest hm with ⟨rfl, hlowest⟩ | ⟨hlt, hlowest⟩
  · grind
  · grind

theorem advance_stays (hserves : Serves outside N tip) (hN : Linked N tip) (htip : 1 ≤ tip)
    (e : Engine) {l : MemoryLedger} (hmt : m ≤ tip) (hl : Follows O m tip l)
    (hsame : ∀ h, 1 ≤ h → h ≤ tip → N h = O h) {fuel : Nat} (hfuel : 0 < fuel) :
    Completes outside (e.advance fuel ⟨⟨tip, (O tip).hash⟩, 0, 0⟩) l fun r tr =>
      r.2 = none ∧ r.1.cursor = ⟨tip, (N tip).hash⟩ ∧ ∃ low, Switched e O N m tip low tip l tr := by
  have htop : N tip = O tip := hsame tip htip (by grind)
  refine (advance_ascends hserves hN htip e 0 l rfl hfuel (.inr ?_)).mono ?_
  · rw [htop]
  · rintro _ tr ⟨rfl, hclimbed⟩
    refine ⟨rfl, rfl, tip, ?_⟩
    have hcursor : l.cursor = some ⟨tip, (N tip).hash⟩ := by rw [hl.cursor, htop]
    have hstored : l.getBlock tip = some (N tip) := by rw [hl.cached tip hmt (by grind), htop]
    have hswitched : Switched e O N m tip tip tip l ([] ++ tr) :=
      Switched.of_climbed (by simp) htip (by grind) (fun _ => hcursor) hstored (fun _ _ => rfl)
        (.inl ⟨hmt, hsame⟩) (by grind) hclimbed
    exact hswitched

theorem advance_meets (hserves : Serves outside N tip) (hN : Linked N tip) (e : Engine)
    {l : MemoryLedger} (hm : 1 ≤ m) (hct : c < tip) (hO : Linked O c) (hl : Follows O m c l)
    {a : UInt64} (hma : m ≤ a) (hac : a ≤ c) (hshared : ∀ h, 1 ≤ h → h ≤ a → N h = O h)
    (hapart : ∀ h, a < h → h ≤ c → (O h).hash ≠ (N h).hash) {fuel : Nat}
    (hfuel : (c.toNat - a.toNat) + (tip.toNat - a.toNat) < fuel) :
    Completes outside (e.advance fuel ⟨⟨c, (O c).hash⟩, 0, 0⟩) l fun r tr =>
      r.2 = none ∧ r.1.cursor = ⟨tip, (N tip).hash⟩ ∧ ∃ low, Switched e O N m c low tip l tr := by
  have hmeet : N a = O a := hshared a (by grind) (by grind)
  have hcached : ∀ h, a ≤ h → h ≤ c → l.getBlock h = some (O h) ∧ (O h).height = h :=
    fun h hlow hhigh => ⟨hl.cached h (by grind) hhigh, hO.height h (by grind) hhigh⟩
  refine (advance_converges hserves hN e (by grind) hac hct hcached (by rw [hmeet]) hapart
    hfuel).mono ?_
  rintro ⟨p, reason⟩ _ ⟨hnone, rfl, down, up, rfl, hdown, hup⟩
  refine ⟨hnone, rfl, a, ?_⟩
  refine Switched.of_climbed hdown.idle (by grind) hac (fun h => absurd h (by grind)) ?_
    (fun h _ => hdown.getBlock h) (.inl ⟨hma, hshared⟩) (by grind) hup
  rw [hdown.getBlock, (hcached a (by grind) hac).1, hmeet]

theorem rewind_below_cache (hserves : Serves outside N tip) {l : MemoryLedger} {low : UInt64}
    (hash : String) (hm : 1 ≤ m) (hmt : m < tip) (hlow : low = max (lowered m 1) minRewindHeight)
    (huncached : ∀ h, 1 ≤ h → h < m → l.getBlock h = none) :
    Completes outside (Engine.rewind ⟨m, hash⟩) l fun a tr => a = some (N low).header.cursor ∧
      Rewound ⟨m, hash⟩ (N low) (l.blocks.insert (N low).height (N low)) l tr ∧
      (⟨.chain (.block low), .ok (N low)⟩ : Exchange) ∈ tr := by
  subst hlow
  rcases rewind_lowest hm with ⟨rfl, hlow⟩ | ⟨hlt, hlow⟩
  · exact rewind_to_served hserves rfl (by grind) (by grind) (.inl hlow)
  · refine rewind_to_served hserves rfl (by grind) (by grind) (.inr ?_)
    exact huncached _ (by grind) (by grind)

theorem advance_digs (hserves : Serves outside N tip) (hN : Linked N tip) (e : Engine)
    {l : MemoryLedger} (hm : 1 ≤ m) (hmc : m ≤ c) (hct : c < tip) (hO : Linked O c)
    (hl : Follows O m c l) (hapart : ∀ h, m ≤ h → h ≤ c → (O h).hash ≠ (N h).hash) {fuel : Nat}
    (hfuel : c.toNat + tip.toNat < fuel) :
    Completes outside (e.advance fuel ⟨⟨c, (O c).hash⟩, 0, 0⟩) l fun r tr =>
      r.2 = none ∧ r.1.cursor = ⟨tip, (N tip).hash⟩ ∧ ∃ low, Switched e O N m c low tip l tr := by
  obtain ⟨low, hlow⟩ : ∃ low, low = max (lowered m 1) minRewindHeight := ⟨_, rfl⟩
  have hrange : 1 ≤ low ∧ low ≤ m := hlow ▸ rewind_lowest_le hm
  have hnat : m.toNat ≤ c.toNat := UInt64.le_iff_toNat_le.mp hmc
  have hnat' : low.toNat ≤ m.toNat := UInt64.le_iff_toNat_le.mp hrange.2
  have hnat'' : c.toNat < tip.toNat := UInt64.lt_iff_toNat_lt.mp hct
  have hpos : 1 ≤ m.toNat := UInt64.le_iff_toNat_le.mp hm
  obtain ⟨rest, rfl⟩ : ∃ rest, fuel = (rest + 1) + (c.toNat - m.toNat) :=
    ⟨fuel - (c.toNat - m.toNat) - 1, by omega⟩
  refine advance_descends hserves hN e hm (c.toNat - m.toNat) l ?_ hct rfl ?_ ?_ ?_
  · show c.toNat = m.toNat + (c.toNat - m.toNat)
    omega
  · exact fun h hlo hhi => ⟨hl.cached h hlo hhi, hO.height h (by grind) hhi⟩
  · exact fun h hlo hhi => hapart h (by grind) hhi
  intro down hdown
  have hbreaks : (N (m + 1)).header.previousHash ≠ (O m).hash := by
    rw [hN.link m hm (by grind)]
    exact (hapart m (by grind) hmc).symm
  have huncached : ∀ h, 1 ≤ h → h < m → (l.after down).getBlock h = none := fun h hpos hlt => by
    rw [hdown.getBlock, hl.uncached h hpos hlt]
  have hrewind := rewind_below_cache hserves (O m).hash hm (by grind) hlow huncached
  refine advance_moves (advanceOnce_rewinds hserves (by grind) (by grind) hbreaks hrewind) ?_
  rintro _ ⟨turn, rfl, hrewound, hserved⟩
  have hopened := hrewound.opened tip (m + 1) (N (m + 1))
  rw [hN.cursor hrange.1 (by grind)]
  refine (advance_ascends hserves hN (by grind) e (tip.toNat - low.toNat) _ ?_ (by omega)
    (.inr rfl)).mono ?_
  · show tip.toNat = low.toNat + (tip.toNat - low.toNat)
    omega
  · rintro _ up ⟨rfl, hup⟩
    refine ⟨rfl, rfl, low, ?_⟩
    rw [← List.append_assoc]
    have hafter := l.after_append down (opening tip (m + 1) (N (m + 1)) ++ turn)
    have hstored : ∀ h, (l.after (down ++ (opening tip (m + 1) (N (m + 1)) ++ turn))).getBlock h =
        if h = low then some (N low) else l.getBlock h := by
      intro h
      rw [← hdown.getBlock h, hafter]
      unfold MemoryLedger.getBlock
      rw [hopened.blocks, hN.height low hrange.1 (by grind), Index.find?_insert]
    refine Switched.of_climbed ?_ hrange.1 (by grind) (fun h => absurd h (by grind)) ?_ ?_ ?_
      (by grind) ?_
    · rw [List.forall_mem_append]
      exact ⟨hdown.idle, hopened.idle⟩
    · rw [hstored, if_pos rfl]
    · intro h hlt
      rw [hstored, if_neg (by grind)]
    · refine .inr ⟨hlow, ?_, fun hone => ?_⟩
      · exact List.mem_append_right _ (List.mem_append_right _ hserved)
      · rw [hafter]
        exact fun entry hentry => hone ▸ hopened.cleared entry hentry
    · rw [hafter]
      exact hup

/-- A cycle that finds another chain turns where the two part, or below all that is cached, and
climbs the new chain to its tip. -/
theorem advance_switches (hserves : Serves outside N tip) (hN : Linked N tip) (e : Engine)
    {l : MemoryLedger} (hm : 1 ≤ m) (hmc : m ≤ c) (hO : Linked O c) (hl : Follows O m c l)
    (hidentity : ∀ h, 1 ≤ h → h ≤ c → h ≤ tip → (O h).hash = (N h).hash → N h = O h)
    (hlonger : c < tip ∨ (tip = c ∧ ∀ h, 1 ≤ h → h ≤ c → N h = O h)) {fuel : Nat}
    (hfuel : 2 * tip.toNat < fuel) :
    Completes outside (e.advance fuel ⟨⟨c, (O c).hash⟩, 0, 0⟩) l fun r tr =>
      r.2 = none ∧ r.1.cursor = ⟨tip, (N tip).hash⟩ ∧ ∃ low, Switched e O N m c low tip l tr := by
  rcases hlonger with hct | ⟨rfl, hsame⟩
  · have hnat : c.toNat < tip.toNat := UInt64.lt_iff_toNat_lt.mp hct
    rcases highest_or_none (fun h => (O h).hash = (N h).hash) hmc with
      ⟨a, hma, hac, hmeet, hapart⟩ | hapart
    · have hshared := shared_below hO hN hidentity hac (by grind) hmeet
      exact advance_meets hserves hN e hm hct hO hl hma hac hshared hapart (by omega)
    · exact advance_digs hserves hN e hm hmc hct hO hl hapart (by omega)
  · exact advance_stays hserves hN (by grind) e hmc hl hsame (by omega)

/-! ## One cycle -/

/-- Where the first scan of a chain starts: just below its tip. -/
def firstCursor (N : UInt64 → Block) (tip : UInt64) : Cursor :=
  if lowered tip 1 = 0 then ⟨0, ""⟩ else ⟨lowered tip 1, (N (lowered tip 1)).hash⟩

theorem firstCursor_height (N : UInt64 → Block) (tip : UInt64) :
    (firstCursor N tip).height = lowered tip 1 := by
  unfold firstCursor
  split
  · rename_i hzero
    rw [hzero]
  · rfl

theorem firstCursor_hash (N : UInt64 → Block) (tip : UInt64) :
    (firstCursor N tip).height = 0 ∨
      (firstCursor N tip).hash = (N (firstCursor N tip).height).hash := by
  unfold firstCursor
  split
  · exact .inl rfl
  · exact .inr rfl

theorem chainHash_completes (hserves : Serves outside N tip) {h : UInt64} (hpos : 1 ≤ h)
    (hle : h ≤ tip) (l : MemoryLedger) :
    Completes outside (Engine.chainHash h) l fun r tr =>
      r = .ok (N h).hash ∧ tr = [⟨.chain (.block h), .ok (N h)⟩] := by
  unfold Engine.chainHash
  refine Completes.bind (Completes.chain l fun t => hserves.block h t hpos hle) ?_
  rintro _ _ ⟨rfl, rfl⟩
  exact Completes.done ⟨rfl, rfl⟩

theorem start_bootstraps (hserves : Serves outside N tip) :
    Completes outside Engine.start .empty fun r tr =>
      r = .ok (firstCursor N tip) ∧ (∀ x ∈ tr, ¬ x.IsWork) ∧
        MemoryLedger.empty.after tr = .empty := by
  unfold Engine.start firstCursor
  refine Completes.bind (Completes.store _ _) ?_
  rintro _ _ ⟨rfl, rfl⟩
  refine Completes.bind (Completes.chain _ hserves.best) ?_
  rintro _ _ ⟨rfl, rfl⟩
  by_cases hzero : lowered tip 1 = 0
  · simp only [hzero, if_true]
    exact Completes.done ⟨rfl, by simp [Exchange.IsWork], rfl⟩
  · have hle : lowered tip 1 ≤ tip := by
      unfold lowered
      split <;> grind
    simp only [hzero, if_false]
    refine Completes.bind (chainHash_completes hserves (by grind) hle _) ?_
    rintro _ _ ⟨rfl, rfl⟩
    exact Completes.done ⟨rfl, by simp [Exchange.IsWork], rfl⟩

/-- A cycle that starts from a cursor and whose advance reaches the tip. -/
theorem cycle_settles (hserves : Serves outside N tip) (hN : Linked N tip) (e : Engine) {c : Cursor}
    {l : MemoryLedger} {fuel : Nat} {P : List Exchange → Prop}
    (hstart : Completes outside Engine.start l fun r tr =>
      r = .ok c ∧ (∀ x ∈ tr, ¬ x.IsWork) ∧ l.after tr = l)
    (hadvance : Completes outside (e.advance fuel ⟨c, 0, 0⟩) l fun r tr =>
      r.2 = none ∧ r.1.cursor = ⟨tip, (N tip).hash⟩ ∧ P tr) (H : UInt64 → Prop) :
    Completes outside (e.cycle fuel) l fun report tr =>
      report.startHeight = c.height ∧ report.finalHeight = tip ∧ ∃ pre p adv rest,
        tr = pre ++ cycleTrace c p adv rest ∧ (∀ x ∈ pre, ¬ x.IsWork) ∧
          l.after tr = (l.after adv).after rest ∧ P adv ∧
            Drained e N ⟨tip, (N tip).hash⟩ H (l.after adv) rest := by
  unfold Engine.cycle
  refine Completes.bind hstart ?_
  rintro _ pre ⟨rfl, hidle, hkept⟩
  rw [hkept]
  refine (cycleFrom_completes (P := fun p adv => p.cursor = ⟨tip, (N tip).hash⟩ ∧ P adv)
    (D := fun _ adv rest => Drained e N ⟨tip, (N tip).hash⟩ H (l.after adv) rest)
    hadvance ?_).mono ?_
  · rintro p adv ⟨hcursor, -⟩
    rw [hcursor]
    exact drain_settles hserves hN e _ (by grind) H
  · rintro report _ ⟨p, adv, rest, rfl, ⟨hcursor, hP⟩, hdrained, hfrom, hfinal, -, -, -⟩
    refine ⟨hfrom, ?_, pre, p, adv, rest, rfl, hidle, ?_, hP, hdrained⟩
    · rw [hfinal, hcursor]
    · rw [l.after_append, hkept, after_cycleTrace]

/-! ## The exchanges of one cycle -/

theorem ExtractedIn.served {e : Engine} {b : Block} {tr : List Exchange} (h : ExtractedIn e b tr) :
    ∃ k, (⟨.chain (.block k), .ok b⟩ : Exchange) ∈ tr := by
  obtain ⟨past, height, failed, batch, later, rfl, -⟩ := h
  exact ⟨height, by simp⟩

section

variable {e : Engine} {b : Block} {pre adv rest : List Exchange} {start : Cursor}
  {p : Engine.Progress}

theorem ExtractedIn.advanced (h : ExtractedIn e b adv) :
    ExtractedIn e b (pre ++ cycleTrace start p adv rest) :=
  ((h.later (⟨.report (.completed p.cursor.height p.blocks), ()⟩ :: rest)).behind
    [⟨.report (.started start.height), ()⟩]).behind pre

theorem ExtractedIn.drained (h : ExtractedIn e b rest) :
    ExtractedIn e b (pre ++ cycleTrace start p adv rest) :=
  (((h.behind [⟨.report (.completed p.cursor.height p.blocks), ()⟩]).behind adv).behind
    [⟨.report (.started start.height), ()⟩]).behind pre

theorem neverRun_cycle (hpre : ∀ x ∈ pre, ¬ x.IsWork) (hadv : (neverRun b).Holds adv none)
    (hrest : ∀ h, (⟨.chain (.block h), .ok b⟩ : Exchange) ∉ rest) :
    (neverRun b).Holds (pre ++ cycleTrace start p adv rest) none := by
  have hstarted : (neverRun b).Holds [⟨.report (.started start.height), ()⟩] none :=
    neverRun_of_idle (by simp [Exchange.IsWork])
  have hdrain : (neverRun b).Holds
      (⟨.report (.completed p.cursor.height p.blocks), ()⟩ :: rest) none :=
    neverRun_of_unserved (by simpa using hrest) id
  exact (neverRun b).append (neverRun_of_idle hpre)
    ((neverRun b).append hstarted ((neverRun b).append hadv hdrain))

end

theorem Follows.of_same {l l' : MemoryLedger} (h : Follows N m tip l) (hsame : SamePosition l l') :
    Follows N m tip l' := by
  have hblocks : ∀ k, l'.getBlock k = l.getBlock k := fun k => by
    unfold MemoryLedger.getBlock
    rw [hsame.blocks]
  refine ⟨by rw [hsame.cursor, h.cursor], fun k hlow hhigh => ?_, fun k hpos hlt => ?_⟩
  · rw [hblocks, h.cached k hlow hhigh]
  · rw [hblocks, h.uncached k hpos hlt]

/-- A height of the current chain, but not height 1 if a certain block stands there. -/
def Untouched (N : UInt64 → Block) (tip : UInt64) (b : Block) (h : UInt64) : Prop :=
  h ≤ tip ∧ (N 1 = b → h ≠ 1)

theorem one_mem_rescanHeights {c : Cursor} {count : UInt64} :
    1 ∈ Engine.rescanHeights c count ↔ 1 < c.height ∧ c.height - 1 ≤ count := by
  rw [Engine.mem_rescanHeights]
  unfold lowered
  split <;> grind

/-- A drain does not fetch a block 1 that is not rescanned and has no records. -/
theorem Drained.skips {e : Engine} {l : MemoryLedger} {b : Block} {hash : String}
    {rest : List Exchange} (hd : Drained e N ⟨tip, hash⟩ (Untouched N tip b) l rest)
    (hN : Linked N tip) (hb : b.height = 1)
    (hnot : N 1 = b → ¬ (1 < tip ∧ tip - 1 ≤ e.config.rescanCount))
    (hl : RecordsIn (Untouched N tip b) l) :
    (∀ h, (⟨.chain (.block h), .ok b⟩ : Exchange) ∉ rest) ∧
      RecordsIn (Untouched N tip b) (l.after rest) := by
  have hwithin : ∀ x ∈ rest, x.Within (Untouched N tip b) := by
    refine hd.within (fun h hh => ⟨?_, ?_⟩) ⟨by grind, fun _ => by decide⟩ hl
    · have hlt : h < tip := (Engine.mem_rescanHeights.mp hh).2.2
      grind
    · rintro hone rfl
      exact hnot hone (one_mem_rescanHeights.mp hh)
  refine ⟨fun h hx => ?_, hl.after (savesOnly_of_within hwithin)⟩
  obtain ⟨hne, hle, hone⟩ := hwithin _ hx
  have hpos : 1 ≤ h := by grind
  have hblock : b = N h := hd.served h b hpos hle hx
  have hheight : (N h).height = h := hN.height h hpos hle
  obtain rfl : h = 1 := by rw [← hheight, ← hblock, hb]
  exact hone hblock.symm rfl

end

/-! ## Histories of cycles -/

/-- Cycles up to a number, one after the other and each in its own surroundings: the result of the
last one, the state after it, and the exchanges of all of them. -/
def Engine.cycles {τ : Type} (e : Engine) (fuel : Nat → Nat) (outside : Nat → Handler τ)
    (s : MemoryLedger × τ) : Nat → Run (MemoryLedger × τ) CycleReport
  | 0 => (e.cycle (fuel 0)).run (aside (outside 0)) s
  | n + 1 =>
    let past := e.cycles fuel outside s n
    let last := (e.cycle (fuel (n + 1))).run (aside (outside (n + 1))) past.state
    ⟨last.result, last.state, past.trace ++ last.trace⟩

section

variable {τ : Type} {outside : Nat → Handler τ} {N : Nat → UInt64 → Block} {tip : Nat → UInt64}
  {fuel : Nat → Nat}

/-- During each cycle one chain is served.  The next cycle finds the same one or one with a larger
tip, which may differ at every height; blocks of equal hash are equal. -/
structure Succession (outside : Nat → Handler τ) (N : Nat → UInt64 → Block) (tip : Nat → UInt64)
    (fuel : Nat → Nat) : Prop where
  serves : ∀ n, Serves (outside n) (N n) (tip n)
  linked : ∀ n, Linked (N n) (tip n)
  first : 1 ≤ tip 0
  longer : ∀ n, tip n < tip (n + 1) ∨
    (tip (n + 1) = tip n ∧ ∀ h, 1 ≤ h → h ≤ tip n → N (n + 1) h = N n h)
  identity : ∀ n n' h h', 1 ≤ h → h ≤ tip n → 1 ≤ h' → h' ≤ tip n' →
    (N n h).hash = (N n' h').hash → N n h = N n' h'
  enough : ∀ n, 2 * (tip n).toNat < fuel n

theorem Succession.step_le (h : Succession outside N tip fuel) (n : Nat) : tip n ≤ tip (n + 1) := by
  rcases h.longer n with hlt | ⟨heq, -⟩
  · grind
  · grind

theorem Succession.pos (h : Succession outside N tip fuel) (n : Nat) : 1 ≤ tip n := by
  induction n with
  | zero => exact h.first
  | succ n ih =>
    have hle := h.step_le n
    grind

/-- A cycle up to a number found a block at height 1 and rescanned that height. -/
def Rescanned (e : Engine) (N : Nat → UInt64 → Block) (tip : Nat → UInt64) (n : Nat) (b : Block) :
    Prop :=
  ∃ k ≤ n, N k 1 = b ∧ 1 < tip k ∧ tip k - 1 ≤ e.config.rescanCount

/-- Where a history stands after a cycle.  The ledger follows the current chain; the blocks of this
chain above the first start were extracted, block 1 maybe not; a block 1 that neither is the first
one nor was rescanned was never run, and has no records. -/
structure Reached (e : Engine) (N : Nat → UInt64 → Block) (tip : Nat → UInt64) (n : Nat) (b : Block)
    (l : MemoryLedger) (tr : List Exchange) : Prop where
  follows : ∃ m, 1 ≤ m ∧ m ≤ tip 0 ∧ Follows (N n) m (tip n) l
  extracted : ∀ h, lowered (tip 0) 1 < h → h ≤ tip n → h ≠ 1 → ExtractedIn e (N n h) tr
  first : tip 0 = 1 → ExtractedIn e (N 0 1) tr
  served : tip 0 = 1 → ∃ h, (⟨.chain (.block h), .ok (N n 1)⟩ : Exchange) ∈ tr
  rescanned : ∀ b', Rescanned e N tip n b' → ExtractedIn e b' tr
  skipped : tip 0 = 1 → b ≠ N 0 1 → ¬ Rescanned e N tip n b →
    (neverRun b).Holds tr none ∧ RecordsIn (Untouched (N n) (tip n) b) l

theorem Climbed.follows {e : Engine} {N : UInt64 → Block} {tip : UInt64} {tr : List Exchange}
    (htip : 1 ≤ tip) (h : Climbed e N (lowered tip 1) tip .empty tr) :
    Follows N tip tip (MemoryLedger.empty.after tr) := by
  have hlowered : lowered tip 1 = tip - 1 := if_pos htip
  refine ⟨?_, fun k hlow hhigh => h.cached k (by grind) hhigh, fun k hpos hlt => ?_⟩
  · rw [h.cursor, if_pos (by grind)]
  · rw [h.below k (by grind)]
    rfl

/-- The first cycle scans the block at the tip. -/
theorem reached_first (h : Succession outside N tip fuel) (e : Engine) {b : Block}
    (hb : b.height = 1) :
    Completes (outside 0) (e.cycle (fuel 0)) .empty fun report tr =>
      report.startHeight = lowered (tip 0) 1 ∧ report.finalHeight = tip 0 ∧
        Reached e N tip 0 b (MemoryLedger.empty.after tr) tr := by
  have htip : 1 ≤ tip 0 := h.first
  have hlowered : lowered (tip 0) 1 = tip 0 - 1 := if_pos htip
  have hpred : (tip 0 - 1).toNat = (tip 0).toNat - 1 := toNat_pred htip
  have hnat : 1 ≤ (tip 0).toNat := UInt64.le_iff_toNat_le.mp htip
  have henough : 2 * (tip 0).toNat < fuel 0 := h.enough 0
  have hadvance : Completes (outside 0)
      (e.advance (fuel 0) ⟨firstCursor (N 0) (tip 0), 0, 0⟩) .empty fun r tr =>
        r.2 = none ∧ r.1.cursor = ⟨tip 0, (N 0 (tip 0)).hash⟩ ∧
          Climbed e (N 0) (lowered (tip 0) 1) (tip 0) .empty tr := by
    refine (advance_ascends (h.serves 0) (h.linked 0) htip e 1 .empty ?_ (by omega)
      (firstCursor_hash (N 0) (tip 0))).mono ?_
    · show (tip 0).toNat = (firstCursor (N 0) (tip 0)).height.toNat + 1
      rw [firstCursor_height, hlowered]
      omega
    · rintro _ tr ⟨rfl, hclimbed⟩
      refine ⟨rfl, rfl, ?_⟩
      rwa [← firstCursor_height (N 0) (tip 0)]
  refine (cycle_settles (h.serves 0) (h.linked 0) e (start_bootstraps (h.serves 0)) hadvance
    (Untouched (N 0) (tip 0) b)).mono ?_
  rintro report _ ⟨hstart, hfinal, pre, p, adv, rest, rfl, hidle, hafter, hclimbed, hdrained⟩
  refine ⟨by rw [hstart, firstCursor_height], hfinal, ?_⟩
  rw [hafter]
  have hone : tip 0 = 1 → ExtractedIn e (N 0 1)
      (pre ++ cycleTrace (firstCursor (N 0) (tip 0)) p adv rest) := fun htop =>
    (hclimbed.extracted 1 (by rw [hlowered, htop]; decide) htip).advanced
  refine ⟨⟨tip 0, htip, by grind, ?_⟩, fun k hlow hhigh _ => ?_, hone, fun htop => ?_, ?_, ?_⟩
  · exact (Climbed.follows htip hclimbed).of_same (after_isDrain hdrained.quiet _)
  · exact (hclimbed.extracted k hlow hhigh).advanced
  · exact (hone htop).served
  · rintro b' ⟨k, hk, rfl, hrange⟩
    obtain rfl : k = 0 := by omega
    exact (hdrained.rescanned 1 (one_mem_rescanHeights.mpr hrange)).drained
  · intro htop hne hnot
    have hrecords : RecordsIn (Untouched (N 0) (tip 0) b) (MemoryLedger.empty.after adv) := by
      refine RecordsIn.after (fun entry hentry => by cases hentry) (hclimbed.saves.mono ?_)
      exact fun k hk => ⟨hk.2, fun heq => absurd heq.symm hne⟩
    obtain ⟨hunserved, hkept⟩ := hdrained.skips (h.linked 0) hb
      (fun heq hrange => hnot ⟨0, by omega, heq, hrange⟩) hrecords
    refine ⟨neverRun_cycle hidle (hclimbed.others b fun k hlow hhigh heq => hne ?_) hunserved,
      hkept⟩
    obtain rfl : k = 1 := by grind
    exact heq.symm

theorem Switched.follows {e : Engine} {O N : UInt64 → Block} {m c low tip : UInt64}
    {l : MemoryLedger} {tr : List Exchange} (hm : 1 ≤ m) (hl : Follows O m c l)
    (h : Switched e O N m c low tip l tr) :
    ∃ m', 1 ≤ m' ∧ m' ≤ m ∧ Follows N m' tip (l.after tr) := by
  have hlc : low ≤ c := h.le
  rcases h.turned with ⟨hml, hshared⟩ | ⟨hlow, -, -⟩
  · refine ⟨m, hm, by grind, h.cursor, fun k hlow hhigh => ?_, fun k hpos hlt => ?_⟩
    · by_cases hk : low ≤ k
      · exact h.cached k hk hhigh
      · rw [h.below k (by grind), hl.cached k hlow (by grind), hshared k (by grind) (by grind)]
    · rw [h.below k (by grind), hl.uncached k hpos hlt]
  · have hle : low ≤ m := hlow ▸ (rewind_lowest_le hm).2
    refine ⟨low, h.pos, hle, h.cursor, h.cached, fun k hpos hlt => ?_⟩
    rw [h.below k hlt, hl.uncached k hpos (by grind)]

theorem Switched.untouched {e : Engine} {O N : UInt64 → Block} {c low tip : UInt64}
    {l : MemoryLedger} {tr : List Exchange} {b : Block} (hct : c ≤ tip)
    (hl : RecordsIn (Untouched O c b) l) (h : Switched e O N 1 c low tip l tr) :
    RecordsIn (Untouched N tip b) (l.after tr) := by
  have hpos : 1 ≤ low := h.pos
  rcases h.turned with ⟨-, hshared⟩ | ⟨-, -, hcleared⟩
  · have hone : N 1 = O 1 := hshared 1 (by grind) hpos
    refine (hl.mono fun k hk => ?_).after (h.saves.mono fun k hk => ?_)
    · exact ⟨UInt64.le_trans hk.1 hct, fun heq => hk.2 (hone ▸ heq)⟩
    · exact ⟨hk.2, fun _ => by grind⟩
  · have hheights : RecordsIn (· ≤ tip) (l.after tr) :=
      (hl.mono fun k hk => UInt64.le_trans hk.1 hct).after (h.saves.mono fun k hk => hk.2)
    exact (hheights.and (hcleared rfl)).mono fun k hk => ⟨hk.1, fun _ => hk.2⟩

theorem Succession.first_le (h : Succession outside N tip fuel) (n : Nat) : tip 0 ≤ tip n := by
  induction n with
  | zero => grind
  | succ n ih =>
    have hle := h.step_le n
    grind

/-- The next cycle keeps what the history has reached. -/
theorem Reached.next (h : Succession outside N tip fuel) {e : Engine} {n : Nat} {b : Block}
    (hb : b.height = 1) {l : MemoryLedger} {tr : List Exchange} (hr : Reached e N tip n b l tr) :
    Completes (outside (n + 1)) (e.cycle (fuel (n + 1))) l fun report tr' =>
      report.finalHeight = tip (n + 1) ∧
        Reached e N tip (n + 1) b (l.after tr') (tr ++ tr') := by
  obtain ⟨m, hm, hfirst, hfollows⟩ := hr.follows
  have hpos : 1 ≤ tip n := h.pos n
  have hle : tip n ≤ tip (n + 1) := h.step_le n
  have hfirstle : tip 0 ≤ tip n := h.first_le n
  have hlowered : lowered (tip 0) 1 = tip 0 - 1 := if_pos h.first
  have hstart : Completes (outside (n + 1)) Engine.start l fun r tr =>
      r = .ok ⟨tip n, (N n (tip n)).hash⟩ ∧ (∀ x ∈ tr, ¬ x.IsWork) ∧ l.after tr = l := by
    refine (start_completes hfollows.cursor hpos).mono ?_
    rintro _ _ ⟨rfl, rfl⟩
    exact ⟨rfl, by simp [Exchange.IsWork], rfl⟩
  have hadvance := advance_switches (h.serves (n + 1)) (h.linked (n + 1)) e hm (by grind)
    (h.linked n) hfollows
    (fun k hk hkn hkn' heq => (h.identity n (n + 1) k k hk hkn hk hkn' heq).symm)
    (h.longer n) (h.enough (n + 1))
  refine (cycle_settles (h.serves (n + 1)) (h.linked (n + 1)) e hstart hadvance
    (Untouched (N (n + 1)) (tip (n + 1)) b)).mono ?_
  rintro report _ ⟨-, hfinal, pre, p, adv, rest, rfl, hidle, hafter, ⟨low, hswitched⟩, hdrained⟩
  have hlow : 1 ≤ low := hswitched.pos
  have hlow' : low ≤ tip n := hswitched.le
  rw [hafter]
  refine ⟨hfinal, ?_, fun k hk hk' hne => ?_, fun hone => (hr.first hone).later _, fun hone => ?_,
    fun b' hb' => ?_, fun hone hne hnot => ?_⟩
  · obtain ⟨m', hm', hmm, hfollows'⟩ := hswitched.follows hm hfollows
    exact ⟨m', hm', by grind, hfollows'.of_same (after_isDrain hdrained.quiet _)⟩
  · by_cases habove : low < k
    · exact (hswitched.extracted k habove hk').advanced.behind tr
    · rcases hswitched.turned with ⟨-, hshared⟩ | ⟨hlowest, -, -⟩
      · rw [hshared k (by grind) (by grind)]
        exact (hr.extracted k hk (by grind) hne).later _
      · -- one block below the cache is no higher than the first start
        rcases rewind_lowest hm with ⟨rfl, hone⟩ | ⟨hlt, hone⟩
        · grind
        · grind
  · obtain rfl : m = 1 := by grind
    rcases hswitched.turned with ⟨-, hshared⟩ | ⟨hlowest, hserved, -⟩
    · obtain ⟨k, hk⟩ := hr.served hone
      rw [hshared 1 (by grind) hlow]
      exact ⟨k, List.mem_append_left _ hk⟩
    · obtain rfl : low = 1 := hlowest
      exact ⟨1, by simp [cycleTrace, hserved]⟩
  · obtain ⟨k, hk, hblock, hrange⟩ := hb'
    rcases (show k = n + 1 ∨ k ≤ n by omega) with rfl | hk'
    · rw [← hblock]
      exact (hdrained.rescanned 1 (one_mem_rescanHeights.mpr hrange)).drained.behind tr
    · exact (hr.rescanned b' ⟨k, hk', hblock, hrange⟩).later _
  · obtain rfl : m = 1 := by grind
    have hearlier : ¬ Rescanned e N tip n b := by
      rintro ⟨k, hk, hrescanned⟩
      exact hnot ⟨k, by omega, hrescanned⟩
    obtain ⟨hnever, hrecords⟩ := hr.skipped hone hne hearlier
    obtain ⟨hunserved, hkept⟩ := hdrained.skips (h.linked (n + 1)) hb
      (fun heq hrange => hnot ⟨n + 1, by omega, heq, hrange⟩)
      (hswitched.untouched hle hrecords)
    refine ⟨(neverRun b).append hnever (neverRun_cycle hidle (hswitched.others b ?_) hunserved),
      hkept⟩
    intro k hk hk' heq
    have hheight : (N (n + 1) k).height = k := (h.linked (n + 1)).height k (by grind) hk'
    rw [heq, hb] at hheight
    grind

theorem cycles_reach (h : Succession outside N tip fuel) (e : Engine) (t : τ) {b : Block}
    (hb : b.height = 1) (n : Nat) :
    ∃ report l t' tr, e.cycles fuel outside (.empty, t) n = ⟨.ok report, (l, t'), tr⟩ ∧
      report.finalHeight = tip n ∧ Reached e N tip n b l tr := by
  induction n with
  | zero =>
    obtain ⟨report, tr, t', hrun, -, hfinal, hreached⟩ := reached_first h e hb t
    exact ⟨report, _, t', tr, hrun, hfinal, hreached⟩
  | succ n ih =>
    obtain ⟨report, l, t', tr, hpast, -, hreached⟩ := ih
    obtain ⟨report', tr', t'', hrun, hfinal, hreached'⟩ := hreached.next h hb t'
    refine ⟨report', _, t'', tr ++ tr', ?_, hfinal, hreached'⟩
    simp only [Engine.cycles, hpast, hrun]

/-! ## What was extracted -/

theorem not_extractedIn {e : Engine} {b : Block} {tr : List Exchange} {halt : Option Halt}
    (hnever : (neverRun b).Holds tr halt) (hsome : b.transactions ≠ []) : ¬ ExtractedIn e b tr := by
  rintro ⟨past, height, failed, batch, later, rfl, hrecorded, haccounted⟩
  cases batch with
  | nil =>
    obtain ⟨txid, htxid⟩ := List.exists_mem_of_ne_nil _ hsome
    rcases haccounted txid htxid with ⟨data, ⟨tx, fee, hfound, -, -⟩, -⟩ | hfailed
    · simp [Batch.Found] at hfound
    · rw [← hrecorded.failed_eq] at hfailed
      simp at hfailed
  | cons x rest =>
    have hwork : x.IsWork := (hrecorded.kinds x List.mem_cons_self).isWork
    exact hnever.1 past height x (rest ++ later) rfl hwork

/-- The batch of an empty block asks nothing. -/
theorem extractedIn_of_empty (e : Engine) {b : Block} {tr : List Exchange}
    (hserved : ∃ h, (⟨.chain (.block h), .ok b⟩ : Exchange) ∈ tr) (hnone : b.transactions = []) :
    ExtractedIn e b tr := by
  obtain ⟨h, hx⟩ := hserved
  obtain ⟨past, later, rfl⟩ := List.append_of_mem hx
  refine ⟨past, h, [], [], later, rfl, .of_quiet (by simp), fun txid htxid => ?_⟩
  have hmem : txid ∈ b.transactions := htxid
  rw [hnone] at hmem
  cases hmem

/-- **Replaced chains leave at most block 1 behind.**  From an empty ledger, whatever chains follow
one another, every cycle reaches the tip of its chain; and a block of this chain above the first
start was extracted by then, in this cycle or an earlier one, exactly if it is not at height 1, or
the first chain had it there too, or a cycle rescanned height 1 while it was there, or it has no
transactions. -/
theorem canonical_blocks_extracted (h : Succession outside N tip fuel) (e : Engine) (t : τ)
    (n : Nat) :
    ∃ first last, (e.cycles fuel outside (.empty, t) 0).result = .ok first ∧
      first.startHeight = lowered (tip 0) 1 ∧
      (e.cycles fuel outside (.empty, t) n).result = .ok last ∧ last.finalHeight = tip n ∧
      ∀ k, first.startHeight < k → k ≤ tip n →
        (ExtractedIn e (N n k) (e.cycles fuel outside (.empty, t) n).trace ↔
          k ≠ 1 ∨ N n 1 = N 0 1 ∨ Rescanned e N tip n (N n 1) ∨ (N n 1).transactions = []) := by
  have hb : (N n 1).height = 1 := (h.linked n).height 1 (by decide) (h.pos n)
  obtain ⟨first, _, _, hrun, hstart, -, -⟩ := reached_first h e hb t
  obtain ⟨last, l, t', tr, hcycles, hfinal, hreached⟩ := cycles_reach h e t hb n
  refine ⟨first, last, ?_, hstart, by rw [hcycles], hfinal, fun k hlow hhigh => ?_⟩
  · simp only [Engine.cycles, hrun]
  rw [hstart] at hlow
  rw [hcycles]
  rcases (show k ≠ 1 ∨ k = 1 by grind) with hne | rfl
  · exact ⟨fun _ => .inl hne, fun _ => hreached.extracted k hlow hhigh hne⟩
  have htop : tip 0 = 1 := by
    have hfirst : 1 ≤ tip 0 := h.first
    have hlowered : lowered (tip 0) 1 = tip 0 - 1 := if_pos hfirst
    grind
  constructor
  · intro hextracted
    by_contra hnot
    obtain ⟨-, hne, hscanned, hsome⟩ : ¬ (1 : UInt64) ≠ 1 ∧ N n 1 ≠ N 0 1 ∧
        ¬ Rescanned e N tip n (N n 1) ∧ (N n 1).transactions ≠ [] := by
      simpa only [not_or] using hnot
    exact not_extractedIn (hreached.skipped htop hne hscanned).1 hsome hextracted
  · rintro (hne | hsame | hscanned | hnone)
    · exact absurd rfl hne
    · rw [hsame]
      exact hreached.first htop
    · exact hreached.rescanned _ hscanned
    · exact extractedIn_of_empty e (hreached.served htop) hnone

end

/-! ## A second chain that replaces the first one from height 1 -/

/-- A block that commits one transaction. -/
def payingBlock (lead : String) (h : UInt64) : Block :=
  { Rehearsal.ChainTables.linearBlock lead h with transactions := ["t"] }

/-- The chain that is served in the first cycle, and the one that is served from then on. -/
def replacedChain (n : Nat) : UInt64 → Block := payingBlock (if n = 0 then "a" else "b")

/-- The tips of these chains. -/
def replacedTip (n : Nat) : UInt64 := if n = 0 then 1 else 3

theorem replaced_succession :
    Succession (fun n => servingOnly (replacedChain n) (replacedTip n)) replacedChain replacedTip
      fun _ => 7 where
  serves _ := servingOnly_serves _ _
  linked _ := ⟨fun _ _ _ => rfl, fun h => (linkedBlocks_linked _ _).link h⟩
  first := by decide
  longer n := by
    cases n with
    | zero => exact .inl (by decide)
    | succ n => exact .inr ⟨rfl, fun _ _ _ => rfl⟩
  identity n n' h h' hpos hle hpos' hle' := by
    have hheights : ∀ (n : Nat) (h : UInt64), 1 ≤ h → h ≤ replacedTip n →
        h = 1 ∨ h = 2 ∨ h = 3 := by
      intro n h hpos hle
      have hthree : replacedTip n ≤ 3 := by
        unfold replacedTip
        split <;> decide
      grind
    have hleads : ∀ n, replacedChain n = payingBlock "a" ∨ replacedChain n = payingBlock "b" := by
      intro n
      unfold replacedChain
      split
      · exact .inl rfl
      · exact .inr rfl
    rcases hleads n with hn | hn <;> rcases hleads n' with hn' | hn' <;>
      rcases hheights n h hpos hle with rfl | rfl | rfl <;>
      rcases hheights n' h' hpos' hle' with rfl | rfl | rfl <;> rw [hn, hn'] <;> decide
  enough n := by
    unfold replacedTip
    split <;> decide

/-- The cycles over these chains. -/
def replacedCycles : Nat → Run (MemoryLedger × Unit) CycleReport :=
  bareEngine.cycles (fun _ => 7) (fun n => servingOnly (replacedChain n) (replacedTip n))
    (.empty, ())

theorem replaced_first_block_skipped :
    ∃ first last, (replacedCycles 0).result = .ok first ∧ first.startHeight = 0 ∧
      (replacedCycles 1).result = .ok last ∧ last.finalHeight = 3 ∧
      ∀ k, 0 < k → k ≤ 3 →
        (ExtractedIn bareEngine (payingBlock "b" k) (replacedCycles 1).trace ↔ k ≠ 1) := by
  obtain ⟨first, last, hfirst, hstart, hlast, hfinal, hall⟩ :=
    canonical_blocks_extracted replaced_succession bareEngine () 1
  refine ⟨first, last, hfirst, hstart, hlast, hfinal, fun k hlow hhigh => ?_⟩
  rw [hstart] at hall
  refine (hall k hlow hhigh).trans ⟨?_, .inl⟩
  rintro (hne | hsame | ⟨n, hn, hblock, hrange⟩ | hnone)
  · exact hne
  · exact absurd hsame (by decide)
  · rcases (show n = 0 ∨ n = 1 by omega) with rfl | rfl
    · exact absurd hblock (by decide)
    · exact absurd hrange (by decide)
  · exact absurd hnone (by decide)

end WalletScan
