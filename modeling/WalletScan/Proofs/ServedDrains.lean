import WalletScan.Proofs.ServedChains
import WalletScan.Proofs.HeightGroups

/-!
# What follows an advance over a served chain

Once the advance is over, the latest blocks are extracted again and the records are tried again.

* `rescanBlocks_extracts` — every height that is rescanned has its block extracted.
* `drain_settles` — and if the records of the ledger and the rescanned heights all are of one kind,
  then no block of another height is fetched and no record of another height is saved.
-/

set_option autoImplicit false

namespace WalletScan

open Script

/-! ## The heights of records -/

/-- The heights of the records of a ledger all satisfy a predicate. -/
def RecordsIn (H : UInt64 → Prop) (l : MemoryLedger) : Prop :=
  ∀ entry ∈ l.unscanned.entries, H entry.2.height

section

variable {H : UInt64 → Prop} {l : MemoryLedger}

theorem RecordsIn.mono {H' : UInt64 → Prop} (h : RecordsIn H l) (hH : ∀ k, H k → H' k) :
    RecordsIn H' l := fun entry hentry => hH _ (h entry hentry)

theorem RecordsIn.and {H' : UInt64 → Prop} (h : RecordsIn H l) (h' : RecordsIn H' l) :
    RecordsIn (fun k => H k ∧ H' k) l := fun entry hentry => ⟨h entry hentry, h' entry hentry⟩

theorem RecordsIn.perform (h : RecordsIn H l) {op : LedgerOp}
    (hop : ∀ r, op = .saveUnscanned r → H r.height) : RecordsIn H (l.perform op).2 := by
  cases op
  case saveUnscanned r =>
    intro entry hentry
    rcases List.mem_cons.mp hentry with rfl | hold
    · exact hop r rfl
    · exact h entry (List.mem_filter.mp hold).1
  case deleteUnscanned height => exact fun entry hentry => h entry (List.mem_filter.mp hentry).1
  case deleteUnscannedRecord height txid =>
    exact fun entry hentry => h entry (List.mem_filter.mp hentry).1
  case deleteUnscannedByReason lead =>
    exact fun entry hentry => h entry (List.mem_filter.mp hentry).1
  all_goals exact h

theorem RecordsIn.after (h : RecordsIn H l) {tr : List Exchange} (hsaves : SavesOnly H tr) :
    RecordsIn H (l.after tr) :=
  replay_frame (K := fun op => ∀ r, op = .saveUnscanned r → H r.height)
    (R := fun l l' => RecordsIn H l → RecordsIn H l') (fun _ => id) (fun h h' hl => h' (h hl))
    (fun _ _ hop hl => RecordsIn.perform hl hop)
    (fun _ answer hx r hr => hsaves r (hr ▸ answer) (by subst hr; exact hx)) l h

theorem savesOnly_of_within {tr : List Exchange} (h : ∀ x ∈ tr, x.Within H) : SavesOnly H tr :=
  fun _ _ hx => h _ hx

theorem RecordsIn.listed (h : RecordsIn H l) : ∀ r ∈ l.listUnscanned, H r.height := by
  intro r hr
  have hmem : r ∈ l.unscanned.values := List.mem_mergeSort.mp hr
  obtain ⟨entry, hentry, rfl⟩ := List.mem_map.mp hmem
  exact h entry hentry

end

/-! ## Rescans -/

section

variable {τ : Type} {outside : Handler τ} {N : UInt64 → Block} {tip : UInt64}

theorem Completes.served (hserves : Serves outside N tip) {α : Type} {p : Script α}
    {l : MemoryLedger} {Q : α → List Exchange → Prop} (h : Completes outside p l Q) :
    Completes outside p l fun a tr => Q a tr ∧ ∀ k b, 1 ≤ k → k ≤ tip →
      (⟨.chain (.block k), .ok b⟩ : Exchange) ∈ tr → b = N k := by
  intro t
  obtain ⟨a, tr, t', hrun, hQ⟩ := h t
  refine ⟨a, tr, t', hrun, hQ, fun k b hpos hle hx => ?_⟩
  have hmem : (⟨.chain (.block k), .ok b⟩ : Exchange) ∈ (p.run (aside outside) (l, t)).trace := by
    rw [hrun]
    exact hx
  obtain ⟨t'', hanswer⟩ := amid_chain_answers p (l, t) hmem
  rw [hserves.block k t'' hpos hle] at hanswer
  exact Except.ok.inj hanswer

/-- Rescanning heights of a served chain extracts each of their blocks. -/
theorem rescanBlocks_extracts (hserves : Serves outside N tip) (hN : Linked N tip) (e : Engine) :
    ∀ (heights : List UInt64) (l : MemoryLedger), (∀ h ∈ heights, 1 ≤ h ∧ h ≤ tip) →
      Completes outside (e.rescanBlocks heights) l fun _ tr =>
        ∀ h ∈ heights, ExtractedIn e (N h) tr
  | [], _, _ => Completes.done (by simp)
  | height :: rest, l, hrange => by
    rw [List.forall_mem_cons] at hrange
    obtain ⟨hpos, hle⟩ := hrange.1
    have hbatch : Batch.block height (N height).hash (N height).transactions =
        (N height).batch := by
      unfold Block.batch
      rw [hN.height height hpos hle]
    have hblock : Completes outside (e.rescanBlock height) l fun _ tr =>
        ExtractedIn e (N height) tr := by
      unfold Engine.rescanBlock
      refine Completes.bind (Completes.chain l fun t => hserves.block height t hpos hle) ?_
      rintro _ _ ⟨rfl, rfl⟩
      simp only [hbatch]
      refine Completes.bind (Completes.quiet (runBatch_quiet e _) (runBatch_ensures e _) _) ?_
      rintro failed batch ⟨-, hacc⟩
      exact Completes.done ⟨[], height, failed, batch, [], by simp, hacc⟩
    unfold Engine.rescanBlocks
    refine Completes.bind hblock fun _ tr hextracted => ?_
    refine (rescanBlocks_extracts hserves hN e rest _ hrange.2).mono fun _ tr' hrest => ?_
    rw [List.forall_mem_cons]
    refine ⟨?_, fun h hh => ?_⟩
    · exact hextracted.later tr'
    · exact (hrest h hh).behind tr

/-! ## The whole drain -/

/-- What follows an advance to a cursor: nothing moves, rescanned blocks are extracted, and the
heights of what is fetched and recorded are those of rescans and records. -/
structure Drained (e : Engine) (N : UInt64 → Block) (c : Cursor) (H : UInt64 → Prop)
    (l : MemoryLedger) (tr : List Exchange) : Prop where
  quiet : ∀ x ∈ tr, x.IsDrain
  rescanned : ∀ h ∈ Engine.rescanHeights c e.config.rescanCount, ExtractedIn e (N h) tr
  within : (∀ h ∈ Engine.rescanHeights c e.config.rescanCount, H h) → H 0 → RecordsIn H l →
    ∀ x ∈ tr, x.Within H
  served : ∀ h b, 1 ≤ h → h ≤ c.height → (⟨.chain (.block h), .ok b⟩ : Exchange) ∈ tr → b = N h

theorem drain_rescans (hserves : Serves outside N tip) (hN : Linked N tip) (e : Engine)
    (l : MemoryLedger) {c : Cursor} (hc : c.height ≤ tip) :
    Completes outside (e.drain c) l fun _ tr =>
      ∀ h ∈ Engine.rescanHeights c e.config.rescanCount, ExtractedIn e (N h) tr := by
  have hrange : ∀ h ∈ Engine.rescanHeights c e.config.rescanCount, 1 ≤ h ∧ h ≤ tip := by
    intro h hh
    obtain ⟨hne, -, hlt⟩ := Engine.mem_rescanHeights.mp hh
    exact ⟨by grind, by grind⟩
  have hretry : ∀ l, Completes outside e.retry l fun _ _ => True := fun l =>
    (Completes.quiet (Engine.retry_quiet e) (Engine.retry_quiet e) l).mono fun _ _ _ => trivial
  unfold Engine.drain
  refine Completes.bind (rescanBlocks_extracts hserves hN e _ l hrange) fun _ tr hextracted => ?_
  have hlater : ∀ tr', ∀ h ∈ Engine.rescanHeights c e.config.rescanCount,
      ExtractedIn e (N h) (tr ++ tr') := fun tr' h hh => (hextracted h hh).later tr'
  split
  · have hmempool := Engine.scanMempool_quiet (H := fun _ => True) e trivial
    refine Completes.bind (Completes.quiet hmempool hmempool _) fun _ tr' _ => ?_
    exact (hretry _).mono fun _ tr'' _ => hlater _
  · exact (hretry _).mono fun _ tr' _ => hlater tr'

theorem retry_within (e : Engine) {H : UInt64 → Prop} {l : MemoryLedger} (hl : RecordsIn H l) :
    Completes outside e.retry l fun _ tr => ∀ x ∈ tr, x.Within H := by
  unfold Engine.retry
  refine Completes.bind (Completes.store _ l) ?_
  rintro _ _ ⟨-, rfl⟩
  have hpurged : RecordsIn H (l.perform (.deleteUnscannedByReason unknownTransactionLead)).2 :=
    RecordsIn.perform hl (by simp)
  refine Completes.bind (Completes.store _ _) ?_
  rintro records _ ⟨hrecords, rfl⟩
  have hgroups : ∀ g ∈ Engine.groupByHeight records, H g.1 := by
    intro g hg
    obtain ⟨r, hr, hheight⟩ := (Engine.groupByHeight_grouped records).exists_record hg
    subst hrecords
    exact hheight ▸ hpurged.listed r hr
  have hheights := Engine.retryHeights_quiet e _ hgroups
  refine Completes.bind (Completes.quiet hheights hheights _) ?_
  rintro retried tr ⟨hkinds, -⟩
  refine Completes.done ?_
  simp only [List.forall_mem_append, List.append_nil, List.forall_mem_singleton]
  exact ⟨trivial, trivial, fun x hx => (hkinds x hx).2⟩

theorem drain_within (e : Engine) {c : Cursor} {H : UInt64 → Prop} {l : MemoryLedger}
    (hheights : ∀ h ∈ Engine.rescanHeights c e.config.rescanCount, H h) (hzero : H 0)
    (hl : RecordsIn H l) :
    Completes outside (e.drain c) l fun _ tr => ∀ x ∈ tr, x.Within H := by
  have hrescan := Engine.rescanBlocks_quiet (H := H) e
    (Engine.rescanHeights c e.config.rescanCount)
    fun h hh => ⟨(Engine.mem_rescanHeights.mp hh).1, hheights h hh⟩
  unfold Engine.drain
  refine Completes.bind (Completes.quiet hrescan hrescan l) ?_
  rintro - tr ⟨hkinds, -⟩
  have htr : ∀ x ∈ tr, x.Within H := fun x hx => (hkinds x hx).2
  have hrescanned : RecordsIn H (l.after tr) := hl.after (savesOnly_of_within htr)
  split
  · have hmempool := Engine.scanMempool_quiet (H := H) e hzero
    refine Completes.bind (Completes.quiet hmempool hmempool _) ?_
    rintro - tr' ⟨hkinds', -⟩
    have htr' : ∀ x ∈ tr', x.Within H := fun x hx => (hkinds' x hx).2
    refine (retry_within e (hrescanned.after (savesOnly_of_within htr'))).mono fun _ tr'' h => ?_
    simp only [List.forall_mem_append]
    exact ⟨htr, htr', h⟩
  · refine (retry_within e hrescanned).mono fun _ tr' h => ?_
    rw [List.forall_mem_append]
    exact ⟨htr, h⟩

/-- **A drain stays with what is there.**  It moves nothing, extracts the rescanned blocks, and
fetches blocks and saves records only at heights of rescans and records. -/
theorem drain_settles (hserves : Serves outside N tip) (hN : Linked N tip) (e : Engine)
    (l : MemoryLedger) {c : Cursor} (hc : c.height ≤ tip) (H : UInt64 → Prop) :
    Completes outside (e.drain c) l fun _ tr => Drained e N c H l tr := by
  have hquiet : Completes outside (e.drain c) l fun _ tr => ∀ x ∈ tr, x.IsDrain :=
    drain_completes e c l
  have hboth := Completes.served hserves (hquiet.and (drain_rescans hserves hN e l hc))
  have hserved : ∀ {tr : List Exchange}, (∀ h b, 1 ≤ h → h ≤ tip →
      (⟨.chain (.block h), .ok b⟩ : Exchange) ∈ tr → b = N h) → ∀ h b, 1 ≤ h → h ≤ c.height →
        (⟨.chain (.block h), .ok b⟩ : Exchange) ∈ tr → b = N h :=
    fun h k b hpos hle hx => h k b hpos (by grind) hx
  by_cases hH : (∀ h ∈ Engine.rescanHeights c e.config.rescanCount, H h) ∧ H 0 ∧ RecordsIn H l
  · refine (hboth.and (drain_within e hH.1 hH.2.1 hH.2.2)).mono ?_
    rintro _ tr ⟨⟨⟨hdrain, hextracted⟩, hblocks⟩, hwithin⟩
    exact ⟨hdrain, hextracted, fun _ _ _ => hwithin, hserved hblocks⟩
  · refine hboth.mono ?_
    rintro _ tr ⟨⟨hdrain, hextracted⟩, hblocks⟩
    exact ⟨hdrain, hextracted, fun h h' h'' => absurd ⟨h, h', h''⟩ hH, hserved hblocks⟩

end

end WalletScan
