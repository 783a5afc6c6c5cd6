import WalletScan.Proofs.ForkConvergence
import WalletScan.Proofs.Outcomes

/-!
# The cached history below the cursor

A chain source may fail or change its answers at any moment.  As long as the blocks that it serves
have the heights that they were asked for at, the blocks that are cached up to the cursor form one
hash-linked chain.

* `Lived`, `Passes` — the ledgers that cycles lead to from the empty one, and the places that the
  loop of a cycle passes between two iterations.
* `Anchored` — the invariant; what is cached above the cursor may be stale.  It covers the cursor at
  the tip with which a first cycle starts and which the ledger does not hold yet.
* `advanceOnce_anchored` — an iteration keeps the invariant, however it ends.
* `cached_history_linked` — the property at every place that is passed.
-/

set_option autoImplicit false

namespace WalletScan

open Script

/-! ## Histories -/

/-- The blocks that a chain source serves have the heights that they were asked for at. -/
def Truthful {τ : Type} (outside : Handler τ) : Prop :=
  ∀ height b, Answers outside (.chain (.block height)) (.ok b) → b.height = height

/-- The ledgers in memory that histories of cycles lead to.  Every cycle may have an engine and
surroundings of its own, and may end in any way. -/
inductive Lived : MemoryLedger → Prop
  | empty : Lived .empty
  | cycle {τ : Type} {outside : Handler τ} {l : MemoryLedger} (h : Lived l) (e : Engine)
    (fuel : Nat) (htruthful : Truthful outside) (t : τ) :
    Lived ((e.cycle fuel).run (aside outside) (l, t)).state.1

/-- The places that the loop of a cycle passes: the one where it starts, and those that an iteration
leads to. -/
inductive Passes {τ : Type} (e : Engine) (outside : Handler τ) (s : MemoryLedger × τ) :
    Engine.Progress → MemoryLedger × τ → Prop
  | started {c : Cursor} (hstart : (Engine.start.run (aside outside) s).result = .ok (.ok c)) :
    Passes e outside s ⟨c, 0, 0⟩ ((Script.report (.started c.height)).run (aside outside)
      (Engine.start.run (aside outside) s).state).state
  | iterated {p p' : Engine.Progress} {s' : MemoryLedger × τ} (h : Passes e outside s p s')
    (honce : ((e.advanceOnce p).run (aside outside) s').result = .ok (.moved p')) :
    Passes e outside s p' ((e.advanceOnce p).run (aside outside) s').state

section

variable {τ : Type} {e : Engine} {outside : Handler τ}

/-- Where a loop has come to, a cycle stands when its bound ends it. -/
theorem Passes.reached {s s' : MemoryLedger × τ} {p : Engine.Progress}
    (h : Passes e outside s p s') : ∃ fuel,
      ((e.cycle fuel).run (aside outside) s).result = .error .exhausted ∧
        ((e.cycle fuel).run (aside outside) s).state = s' := by
  suffices hrest : ∃ n, ∀ k s'',
      ((e.advance k p).run (aside outside) s').result = .error .exhausted ∧
        ((e.advance k p).run (aside outside) s').state = s'' →
      ((e.cycle (n + k)).run (aside outside) s).result = .error .exhausted ∧
        ((e.cycle (n + k)).run (aside outside) s).state = s'' by
    obtain ⟨n, hn⟩ := hrest
    exact ⟨n + 0, hn 0 s' ⟨rfl, rfl⟩⟩
  induction h with
  | @started c hstart =>
    refine ⟨0, fun k s'' hk => ?_⟩
    rw [Nat.zero_add]
    unfold Engine.cycle Engine.cycleFrom
    simp only [bind_eq, run_bind, hstart]
    rw [hk.1]
    exact ⟨rfl, hk.2⟩
  | @iterated p p' s' h honce ih =>
    obtain ⟨n, hn⟩ := ih
    refine ⟨n + 1, fun k s'' hk => ?_⟩
    rw [Nat.add_assoc, Nat.add_comm 1 k]
    refine hn (k + 1) s'' ?_
    unfold Engine.advance
    simp only [bind_eq, run_bind, honce]
    exact hk

end

/-! ## The invariant -/

/-- The cached blocks up to a cursor form a chain that ends at it: their heights are consecutive,
and each names the hash of the one below. -/
structure LinkedTo (l : MemoryLedger) (c : Cursor) : Prop where
  top : ∃ b, l.getBlock c.height = some b ∧ b.hash = c.hash
  heights : ∃ low, 1 ≤ low ∧ low ≤ c.height ∧ ∀ h ≤ c.height, (l.getBlock h).isSome ↔ low ≤ h
  link : ∀ h b b', h < c.height → l.getBlock h = some b → l.getBlock (h + 1) = some b' →
    b'.header.previousHash = b.hash

/-- What holds of a ledger between two iterations.  Before the first cursor is stored, no block is
cached. -/
structure Anchored (l : MemoryLedger) : Prop where
  own : ∀ h b, l.getBlock h = some b → b.height = h
  fresh : l.cursor = none → l.blocks = .empty
  linked : ∀ c, l.cursor = some c → LinkedTo l c

/-- The loop of a cycle stands at a cursor: the ledger holds it, or none. -/
def StandsAt (c : Cursor) (l : MemoryLedger) : Prop := l.cursor = none ∨ l.cursor = some c

theorem StandsAt.of_samePosition {c : Cursor} {l l' : MemoryLedger} (h : StandsAt c l)
    (hsame : SamePosition l l') : StandsAt c l' := by
  unfold StandsAt
  rwa [hsame.cursor]

theorem empty_anchored : Anchored .empty :=
  ⟨fun _ _ hb => (nomatch hb), fun _ => rfl, fun _ hc => (nomatch hc)⟩

theorem getBlock_congr {l l' : MemoryLedger} (h : l'.blocks = l.blocks) (height : UInt64) :
    l'.getBlock height = l.getBlock height := congrArg (Index.find? height) h

theorem getBlock_insert {l l' : MemoryLedger} {b : Block}
    (h : l'.blocks = l.blocks.insert b.height b) (height : UInt64) :
    l'.getBlock height = if height = b.height then some b else l.getBlock height := by
  unfold MemoryLedger.getBlock
  rw [h, Index.find?_insert]

/-- A cached run of heights, a link at a time, is not changed by what is not cached up to it. -/
theorem LinkedTo.congr {l l' : MemoryLedger} {c : Cursor} (h : LinkedTo l c)
    (hsame : ∀ height ≤ c.height, l'.getBlock height = l.getBlock height) : LinkedTo l' c := by
  obtain ⟨⟨b, hb, hhash⟩, ⟨low, hpos, hle, hcached⟩, hlink⟩ := h
  refine ⟨⟨b, (hsame _ (UInt64.le_refl _)).trans hb, hhash⟩, ⟨low, hpos, hle, ?_⟩, ?_⟩
  · intro height hheight
    rw [hsame height hheight]
    exact hcached height hheight
  · intro height b b' hlt
    rw [hsame height (UInt64.le_of_lt hlt), hsame (height + 1) (by grind)]
    exact hlink height b b' hlt

theorem Anchored.of_samePosition {l l' : MemoryLedger} (h : Anchored l)
    (hsame : SamePosition l l') : Anchored l' := by
  refine ⟨fun height b hb => ?_, fun hnone => ?_, fun c hc => ?_⟩
  · rw [getBlock_congr hsame.blocks] at hb
    exact h.own height b hb
  · rw [hsame.cursor] at hnone
    rw [hsame.blocks, h.fresh hnone]
  · rw [hsame.cursor] at hc
    exact (h.linked c hc).congr fun height _ => getBlock_congr hsame.blocks height

section

variable {l l' : MemoryLedger} {b : Block}

theorem own_insert (hown : ∀ h a, l.getBlock h = some a → a.height = h)
    (hblocks : l'.blocks = l.blocks.insert b.height b) :
    ∀ h a, l'.getBlock h = some a → a.height = h := by
  intro h a ha
  rw [getBlock_insert hblocks] at ha
  split at ha
  · rename_i heq
    rw [← Option.some.inj ha, heq]
  · exact hown h a ha

/-- A cursor on a block below which nothing is cached stands on a chain of one block. -/
theorem anchored_alone (hown : ∀ h a, l.getBlock h = some a → a.height = h)
    (hpos : 1 ≤ b.height) (hbelow : ∀ h < b.height, l.getBlock h = none)
    (hcursor : l'.cursor = some b.header.cursor)
    (hblocks : l'.blocks = l.blocks.insert b.height b) : Anchored l' := by
  have hnone : ∀ h < b.height, l'.getBlock h = none := by
    intro h hlt
    rw [getBlock_insert hblocks, if_neg (UInt64.ne_of_lt hlt), hbelow h hlt]
  refine ⟨own_insert hown hblocks, fun hfresh => ?_, fun c hc => ?_⟩
  · rw [hcursor] at hfresh
    cases hfresh
  · rw [hcursor] at hc
    obtain rfl := Option.some.inj hc
    have htop : l'.getBlock b.height = some b := by rw [getBlock_insert hblocks, if_pos rfl]
    refine ⟨⟨b, htop, rfl⟩, ⟨b.height, hpos, UInt64.le_refl _, fun h hle => ?_⟩, ?_⟩
    · rcases UInt64.lt_or_eq_of_le hle with hlt | heq
      · rw [hnone h hlt]
        simp only [Option.isSome_none, Bool.false_eq_true, false_iff, UInt64.not_le]
        exact hlt
      · rw [heq, show b.header.cursor.height = b.height from rfl, htop]
        simp
    · intro h a a' hlt ha
      rw [hnone h hlt] at ha
      cases ha

/-- A block that names the hash under the cursor lengthens the chain. -/
theorem Anchored.lengthen (h : Anchored l) {c : Cursor} (hc : l.cursor = some c)
    (hheight : b.height = c.height + 1) (hlt : c.height < c.height + 1)
    (hextends : b.header.previousHash = c.hash) (hcursor : l'.cursor = some b.header.cursor)
    (hblocks : l'.blocks = l.blocks.insert b.height b) : Anchored l' := by
  obtain ⟨⟨top, htop, htophash⟩, ⟨low, hpos, hle, hcached⟩, hlink⟩ := h.linked c hc
  have hbelow : ∀ h ≤ c.height, l'.getBlock h = l.getBlock h := by
    intro h hh
    rw [getBlock_insert hblocks, if_neg (by grind)]
  have hnew : l'.getBlock b.height = some b := by rw [getBlock_insert hblocks, if_pos rfl]
  refine ⟨own_insert h.own hblocks, fun hfresh => ?_, fun c' hc' => ?_⟩
  · rw [hcursor] at hfresh
    cases hfresh
  · rw [hcursor] at hc'
    obtain rfl := Option.some.inj hc'
    have hcursorHeight : b.header.cursor.height = b.height := rfl
    refine ⟨⟨b, hnew, rfl⟩, ⟨low, hpos, ?_, fun h hh => ?_⟩, fun h a a' hh ha ha' => ?_⟩
    · grind
    · by_cases hold : h ≤ c.height
      · rw [hbelow h hold]
        exact hcached h hold
      · obtain rfl : h = b.height := by grind
        rw [hnew]
        simp
        grind
    · rw [hbelow h (by grind)] at ha
      by_cases hold : h < c.height
      · rw [hbelow (h + 1) (by grind)] at ha'
        exact hlink h a a' hold ha ha'
      · -- the new block is linked to the one under the old cursor
        obtain rfl : h = c.height := by grind
        rw [← hheight, hnew] at ha'
        rw [htop] at ha
        rw [← Option.some.inj ha, ← Option.some.inj ha', hextends, htophash]

/-- One block less is still a chain. -/
theorem Anchored.shorten (h : Anchored l) {c : Cursor} (hc : l.cursor = some c) (hlt : 1 < c.height)
    (hcached : l.getBlock (c.height - 1) = some b) (hcursor : l'.cursor = some b.header.cursor)
    (hblocks : l'.blocks = l.blocks) : Anchored l' := by
  obtain ⟨⟨top, htop, htophash⟩, ⟨low, hpos, hle, hrun⟩, hlink⟩ := h.linked c hc
  have hheight : b.height = c.height - 1 := h.own _ b hcached
  have hlow : low ≤ c.height - 1 := (hrun _ (by grind)).mp (by simp [hcached])
  refine ⟨fun h' a ha => ?_, fun hfresh => ?_, fun c' hc' => ?_⟩
  · rw [getBlock_congr hblocks] at ha
    exact h.own h' a ha
  · rw [hcursor] at hfresh
    cases hfresh
  · rw [hcursor] at hc'
    obtain rfl := Option.some.inj hc'
    have hcursorHeight : b.header.cursor.height = c.height - 1 := hheight
    have hshort : LinkedTo l b.header.cursor := by
      refine ⟨⟨b, by rw [hcursorHeight, hcached], rfl⟩, ⟨low, hpos, by grind, fun h' hh => ?_⟩, ?_⟩
      · exact hrun h' (by grind)
      · exact fun h' a a' hh => hlink h' a a' (by grind)
    exact hshort.congr fun h' _ => getBlock_congr hblocks h'

end

/-! ## One iteration -/

section

variable {τ : Type} {outside : Handler τ} {l : MemoryLedger} {p : Engine.Progress}

/-- The exchanges of a batch leave the cursor and the cached blocks alone. -/
theorem after_batch {height : UInt64} {batch : List Exchange}
    (h : ∀ x ∈ batch, x.InBatch height) (l : MemoryLedger) : SamePosition l (l.after batch) :=
  after_isDrain (fun x hx => (h x hx).isRescan.1) l

/-- Nothing is cached below the height that a rewind fetches a block at. -/
theorem Anchored.uncached_below (h : Anchored l) {c : Cursor} (hstands : StandsAt c l)
    (hpos : 0 < c.height) (hmissed : Missed MemoryLedger.carryOut c l) :
    ∀ h < c.below, l.getBlock h = none := by
  intro height hlt
  rcases hstands with hnone | hsome
  · unfold MemoryLedger.getBlock
    rw [h.fresh hnone]
    rfl
  · obtain ⟨low, hlow, hle, hcached⟩ := (h.linked c hsome).heights
    have habove : height < low := by
      rcases rewind_lowest (m := c.height) (by grind) with ⟨hone, hbelow⟩ | ⟨hhigh, hbelow⟩
      · have htarget : c.below = 1 := hbelow
        grind
      · have htarget : c.below = c.height - 1 := hbelow
        have hmiss : l.getBlock c.below = none :=
          Except.ok.inj (hmissed.resolve_left (by grind))
        have hnot : ¬ low ≤ c.below := by
          rw [← hcached _ (by grind), hmiss]
          simp
        grind
    have hnot : ¬ (l.getBlock height).isSome := by
      rw [hcached height (by grind)]
      grind
    simpa using hnot

/-- Where a rewind leads to, the invariant holds again. -/
theorem Anchored.rewound (htruthful : Truthful outside) (h : Anchored l) {c : Cursor}
    (hstands : StandsAt c l) (hpos : 0 < c.height) {b : Block} {l' : MemoryLedger}
    (hsearch : AncestorEnd MemoryLedger.carryOut outside c l (.ok (some b)) l') :
    Anchored (l'.setCursor b.header.cursor) := by
  cases hsearch with
  | cached hne hcached =>
    have hstored : l.getBlock c.below = some b := Except.ok.inj hcached
    rcases hstands with hnone | hsome
    · unfold MemoryLedger.getBlock at hstored
      rw [h.fresh hnone] at hstored
      cases hstored
    · rcases rewind_lowest (m := c.height) (by grind) with ⟨hone, hbelow⟩ | ⟨hhigh, hbelow⟩
      · exact absurd (hbelow.trans hone.symm) hne
      · rw [show c.below = c.height - 1 from hbelow] at hstored
        exact h.shorten hsome hhigh hstored rfl rfl
  | fetched hmissed hserved =>
    have hheight : b.height = c.below := htruthful _ b hserved
    have hlowest : 1 ≤ c.below := by
      rcases rewind_lowest (m := c.height) (by grind) with ⟨-, hbelow⟩ | ⟨hhigh, hbelow⟩
      · rw [show c.below = 1 from hbelow]
        decide
      · rw [show c.below = c.height - 1 from hbelow]
        grind
    refine anchored_alone h.own (hheight ▸ hlowest) ?_ rfl rfl
    rw [hheight]
    exact h.uncached_below hstands hpos hmissed

/-- Where an acceptance leads to, the invariant holds again. -/
theorem Anchored.accepted (h : Anchored l) {c : Cursor} (hstands : StandsAt c l) {b : Block}
    (hheight : b.height = c.height + 1) (hlt : c.height < c.height + 1) (hextends : ¬ Breaks c b) :
    Anchored ((l.setCursor b.header.cursor).putBlock b) := by
  rcases hstands with hnone | hsome
  · refine anchored_alone h.own (by grind) (fun height _ => ?_) rfl rfl
    unfold MemoryLedger.getBlock
    rw [h.fresh hnone]
    rfl
  · obtain ⟨low, hlow, hle, -⟩ := (h.linked c hsome).heights
    refine h.lengthen hsome hheight hlt ?_ rfl rfl
    by_contra hne
    exact hextends ⟨by grind, hne⟩

/-- **An iteration keeps the invariant.**  It does so however it ends, and if it moves the cursor
then the ledger holds the new one. -/
theorem advanceOnce_anchored (htruthful : Truthful outside) (e : Engine) (h : Anchored l)
    (hstands : StandsAt p.cursor l) :
    Leads MemoryLedger.carryOut outside (e.advanceOnce p) l fun r l' =>
      Anchored l' ∧ ∀ p', r = .ok (.moved p') → l'.cursor = some p'.cursor := by
  refine (advanceOnce_leads memory_steady e p l).mono ?_
  intro r l' hend
  cases hend with
  | stopped hi hstops => exact ⟨h, fun p' hp' => absurd (Except.ok.inj hp') (hi p')⟩
  | @served tip b r l' htip hlt hblock hover =>
    have haccepted : ∀ batch : List Exchange, (∀ x ∈ batch, x.InBatch b.height) →
        ¬ Breaks p.cursor b → Anchored (acceptedInto MemoryLedger.carryOut b batch l) := by
      intro batch hbatch hextends
      have hsame := after_batch hbatch l
      exact (h.of_samePosition hsame).accepted (hstands.of_samePosition hsame)
        (htruthful _ b hblock) (by grind) hextends
    cases hover with
    | rewound hbreaks hrewind =>
      have hcleared : SamePosition l (l.deleteUnscanned p.cursor.height).2 := ⟨rfl, rfl⟩
      have h' := h.of_samePosition hcleared
      cases hrewind with
      | unreadable hread => cases hread
      | failed hsearch => cases hsearch with | unreadable hread => cases hread
      | stuck hsearch =>
        cases hsearch
        exact ⟨h', by simp [Except.map, rewoundTo]⟩
      | moved hsearch =>
        refine ⟨h'.rewound htruthful hstands hbreaks.1 hsearch, ?_⟩
        rintro _ ⟨⟩
        rfl
      | died hsearch hdied =>
        exact ⟨h'.rewound htruthful hstands hbreaks.1 hsearch, by simp [Except.map]⟩
    | @accepted batch hextends hbatch =>
      refine ⟨haccepted batch hbatch hextends, ?_⟩
      rintro _ ⟨⟩
      rfl
    | @died batch detail hextends hbatch hdied =>
      exact ⟨haccepted batch hbatch hextends, by simp⟩

/-! ## Whole cycles -/

/-- A cycle starts at the cursor that the ledger holds, if it holds one. -/
theorem start_anchored (h : Anchored l) :
    Leads MemoryLedger.carryOut outside Engine.start l fun r l' =>
      Anchored l' ∧ ∀ c, r = .ok (.ok c) → StandsAt c l' := by
  unfold Engine.start
  refine Leads.write memory_steady (by simp) fun stored hstored => ?_
  obtain rfl : l.cursor = stored := Except.ok.inj hstored
  cases hcursor : l.cursor with
  | some c =>
    obtain ⟨low, hpos, hle, -⟩ := (h.linked c hcursor).heights
    have hsome : (some c).filter (fun c : Cursor => !c.isEmpty) = some c := by
      have hne : c.height ≠ 0 := by grind
      simp [Cursor.isEmpty, hne]
    rw [hsome]
    refine Leads.done ⟨h, ?_⟩
    rintro _ ⟨⟩
    exact .inr hcursor
  | none =>
    have hquiet : ∀ r : Except Halt (Except ChainError Cursor),
        Anchored l ∧ ∀ c, r = .ok (.ok c) → StandsAt c l := fun _ => ⟨h, fun _ _ => .inl hcursor⟩
    refine Leads.chain ?_
    rintro (cause | tip) -
    · exact Leads.done (hquiet _)
    · by_cases hzero : lowered tip 1 = 0
      · simp only [hzero, if_true]
        exact Leads.done (hquiet _)
      · simp only [hzero, if_false]
        unfold Engine.chainHash
        simp only [bind_eq, bind_assoc]
        refine Leads.chain ?_
        rintro (cause | b) - <;> exact Leads.done (hquiet _)

theorem advance_anchored (htruthful : Truthful outside) (e : Engine) :
    ∀ (fuel : Nat) {p : Engine.Progress} {l : MemoryLedger}, Anchored l → StandsAt p.cursor l →
      Leads MemoryLedger.carryOut outside (e.advance fuel p) l fun _ l' => Anchored l'
  | 0, _, _, h, _ => fun _ => h
  | fuel + 1, p, l, h, hstands => by
    unfold Engine.advance
    refine Leads.bind (advanceOnce_anchored htruthful e h hstands) ?_ fun _ _ hend => hend.1
    rintro (p' | _ | reason) l' ⟨h', hmoved⟩
    · exact advance_anchored htruthful e fuel h' (.inr (hmoved p' rfl))
    · exact Leads.done h'
    · exact Leads.done h'

/-- What follows an advance keeps the invariant. -/
theorem drain_anchored (e : Engine) (c : Cursor) (h : Anchored l) :
    Leads MemoryLedger.carryOut outside (e.drain c) l fun _ l' => Anchored l' := by
  refine (Leads.only (Engine.drain_quiet e c).orderly l).mono ?_
  rintro r _ ⟨tr, hdrain, rfl⟩
  exact h.of_samePosition (after_isDrain hdrain l)

theorem cycle_anchored (htruthful : Truthful outside) (e : Engine) (fuel : Nat) (h : Anchored l) :
    Leads MemoryLedger.carryOut outside (e.cycle fuel) l fun _ l' => Anchored l' := by
  unfold Engine.cycle
  refine Leads.bind (start_anchored h) ?_ fun _ _ hend => hend.1
  rintro (cause | c) l' ⟨h', hstands⟩
  · exact Leads.done h'
  · unfold Engine.cycleFrom
    refine Leads.report ?_
    refine Leads.bind (advance_anchored htruthful e fuel h' (hstands c rfl)) ?_ fun _ _ hend => hend
    rintro ⟨p, _ | reason⟩ l'' h''
    · refine Leads.report ?_
      exact Leads.bind (drain_anchored e p.cursor h'') (fun _ _ hend => Leads.done hend)
        fun _ _ hend => hend
    · exact Leads.report (Leads.done h'')

end

theorem Lived.anchored {l : MemoryLedger} (h : Lived l) : Anchored l := by
  induction h with
  | empty => exact empty_anchored
  | cycle _ e fuel htruthful t ih => exact cycle_anchored htruthful e fuel ih t

/-- At every place that a loop passes, the invariant holds and the ledger holds the cursor of the
loop or none. -/
theorem Passes.anchored {τ : Type} {e : Engine} {outside : Handler τ} (htruthful : Truthful outside)
    {s s' : MemoryLedger × τ} {p : Engine.Progress} (hpasses : Passes e outside s p s')
    (h : Anchored s.1) : Anchored s'.1 ∧ StandsAt p.cursor s'.1 := by
  induction hpasses with
  | @started c hstart =>
    obtain ⟨h', hstands⟩ := (start_anchored h : Leads _ outside _ _ _) s.2
    exact ⟨h', hstands c hstart⟩
  | @iterated p p' s' _ honce ih =>
    obtain ⟨h', hmoved⟩ := advanceOnce_anchored htruthful e ih.1 ih.2 s'.2
    exact ⟨h', .inr (hmoved p' honce)⟩

/-- **The cached history below the cursor is one hash-linked chain.**  After any history of cycles
from the empty ledger, between two iterations of a loop: if the ledger holds a cursor, then it is
the one of the loop, the cached heights up to it are consecutive and end at it, the block there has
its hash, and each block names the hash of the one below. -/
theorem cached_history_linked {τ : Type} {e : Engine} {outside : Handler τ}
    (htruthful : Truthful outside) {l : MemoryLedger} (hlived : Lived l) {t : τ}
    {p : Engine.Progress} {s : MemoryLedger × τ} (hpasses : Passes e outside (l, t) p s)
    {c : Cursor} (hcursor : s.1.cursor = some c) : c = p.cursor ∧ LinkedTo s.1 c := by
  obtain ⟨hanchored, hstands⟩ := hpasses.anchored htruthful hlived.anchored
  refine ⟨?_, hanchored.linked c hcursor⟩
  rcases hstands with hnone | hsome
  · rw [hnone] at hcursor
    cases hcursor
  · exact Option.some.inj (hcursor.symm.trans hsome)

/-! ## A chain that is replaced -/

theorem servingOnly_truthful (lead : String) (tip : UInt64) :
    Truthful (servingOnly (Rehearsal.ChainTables.linearBlock lead) tip) := by
  rintro height _ ⟨_, ⟨⟩⟩
  rfl

/-- The ledger after a cycle over a chain of three blocks. -/
def visitedLedger : MemoryLedger :=
  ((bareEngine.cycle 3).run (aside (servingOnly (Rehearsal.ChainTables.linearBlock "o") 3))
    (.empty, ())).state.1

theorem visitedLedger_lived : Lived visitedLedger :=
  Lived.empty.cycle bareEngine 3 (servingOnly_truthful "o" 3) ()

/-- When another chain is served, the next cycle passes a place where two of its blocks are cached
up to the cursor. -/
theorem visitedLedger_relinked :
    ∃ p s, Passes bareEngine (servingOnly (Rehearsal.ChainTables.linearBlock "n") 5)
        (visitedLedger, ()) p s ∧
      s.1.blocks.values.map (·.hash) = ["n3", "n2"] ∧
      (⟨3, "n3"⟩ : Cursor) = p.cursor ∧ LinkedTo s.1 ⟨3, "n3"⟩ := by
  have htruthful := servingOnly_truthful "n" 5
  have hstarted : Passes bareEngine (servingOnly (Rehearsal.ChainTables.linearBlock "n") 5)
      (visitedLedger, ()) ⟨⟨3, "o3"⟩, 0, 0⟩ _ := .started (by decide +kernel)
  have hrewound : Passes _ _ _ ⟨⟨2, "n2"⟩, 0, 1⟩ _ := hstarted.iterated (by decide +kernel)
  have haccepted : Passes _ _ _ ⟨⟨3, "n3"⟩, 1, 1⟩ _ := hrewound.iterated (by decide +kernel)
  refine ⟨_, _, haccepted, by decide +kernel, ?_⟩
  exact cached_history_linked htruthful visitedLedger_lived haccepted (by decide +kernel)

end WalletScan
