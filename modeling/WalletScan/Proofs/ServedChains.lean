import WalletScan.Proofs.Surroundings

/-!
# Advancing over a chain that is served as a whole

A chain source answers from one hash-linked chain (`Serves`, `Linked`) while a cycle over a ledger
in memory advances.

* `advance_descends` — the cursor follows cached blocks down while the served chain contradicts
  them.
* `advance_ascends` — from a block of the served chain the cursor climbs to its tip, and each block
  on the way is extracted, cached and announced.
-/

set_option autoImplicit false

namespace WalletScan

open Script

/-! ## Chains -/

/-- The blocks up to a tip have their heights, and each names the hash of the one below it. -/
structure Linked (N : UInt64 → Block) (tip : UInt64) : Prop where
  height : ∀ h, 1 ≤ h → h ≤ tip → (N h).height = h
  link : ∀ h, 1 ≤ h → h < tip → (N (h + 1)).header.previousHash = (N h).hash

theorem Linked.cursor {N : UInt64 → Block} {tip h : UInt64} (hN : Linked N tip) (hpos : 1 ≤ h)
    (hle : h ≤ tip) : (N h).header.cursor = ⟨h, (N h).hash⟩ := by
  have hheight : (N h).header.height = h := hN.height h hpos hle
  unfold BlockHeader.cursor Block.hash
  rw [hheight]

/-- The task is running, the chain source serves one chain, and the observers live. -/
structure Serves {τ : Type} (outside : Handler τ) (N : UInt64 → Block) (tip : UInt64) : Prop where
  running : ∀ t, (outside .taskState t).1 = .running
  best : ∀ t, (outside (.chain .tip) t).1 = .ok tip
  block : ∀ h t, 1 ≤ h → h ≤ tip → (outside (.chain (.block h)) t).1 = .ok (N h)
  observers : ∀ header isFork t, (outside (.announce header isFork) t).1 = .ok ()

/-- The heights above one up to another, upwards. -/
def heightsAbove (low high : UInt64) : List UInt64 :=
  (List.range (high.toNat - low.toNat)).map fun i => low + 1 + UInt64.ofNat i

theorem toNat_succ {h tip : UInt64} (hlt : h < tip) : (h + 1).toNat = h.toNat + 1 := by
  have hbound : tip.toNat < 2 ^ 64 := tip.toNat_lt
  have hnat : h.toNat < tip.toNat := UInt64.lt_iff_toNat_lt.mp hlt
  have hsum : (h + 1).toNat = (h.toNat + 1) % 2 ^ 64 := UInt64.toNat_add h 1
  omega

theorem toNat_pred {h : UInt64} (hpos : 1 ≤ h) : (h - 1).toNat = h.toNat - 1 :=
  UInt64.toNat_sub_of_le _ _ hpos

theorem heightsAbove_of_le {low high : UInt64} (hle : high ≤ low) : heightsAbove low high = [] := by
  have hnat : high.toNat ≤ low.toNat := UInt64.le_iff_toNat_le.mp hle
  simp [heightsAbove, Nat.sub_eq_zero_of_le hnat]

theorem heightsAbove_of_lt {low high : UInt64} (hlt : low < high) :
    heightsAbove low high = (low + 1) :: heightsAbove (low + 1) high := by
  have hnat : low.toNat < high.toNat := UInt64.lt_iff_toNat_lt.mp hlt
  have hsucc : (low + 1).toNat = low.toNat + 1 := toNat_succ hlt
  unfold heightsAbove
  rw [show high.toNat - low.toNat = (high.toNat - (low + 1).toNat) + 1 by omega,
    List.range_succ_eq_map, List.map_cons, List.map_map]
  congr 1
  · simp
  · refine List.map_congr_left fun i _ => ?_
    simp only [Function.comp, Nat.succ_eq_add_one, UInt64.ofNat_add]
    grind

theorem heightsAbove_snoc {low high : UInt64} (hlt : low < high) :
    heightsAbove low high = heightsAbove low (high - 1) ++ [high] := by
  have hnat : low.toNat < high.toNat := UInt64.lt_iff_toNat_lt.mp hlt
  have hpred : (high - 1).toNat = high.toNat - 1 := toNat_pred (by grind)
  unfold heightsAbove
  rw [show high.toNat - low.toNat = ((high - 1).toNat - low.toNat) + 1 by omega,
    List.range_succ, List.map_append]
  congr 1
  simp only [List.map_cons, List.map_nil, List.cons.injEq, and_true]
  rw [hpred, ← UInt64.toNat_inj]
  simp only [UInt64.toNat_add, UInt64.toNat_ofNat']
  have hbound : high.toNat < 2 ^ 64 := high.toNat_lt
  have hone : (1 : UInt64).toNat = 1 := rfl
  omega

/-! ## Announcements, extractions and batches -/

/-- The block that the observers were told of, and whether it was abandoned. -/
def Exchange.announced? : Exchange → Option (BlockHeader × Bool)
  | ⟨.announce header isFork, _⟩ => some (header, isFork)
  | _ => none

open Exchange (announced?)

theorem announced_isDrain {tr : List Exchange} (h : ∀ x ∈ tr, x.IsDrain) :
    readOff announced? tr = [] := by
  refine readOff_eq_nil fun x hx => ?_
  obtain ⟨q, a⟩ := x
  cases q with
  | announce header isFork => exact (h _ hx).elim
  | _ => rfl

/-- A block was served, and its batch was run right after. -/
def ExtractedIn (e : Engine) (b : Block) (tr : List Exchange) : Prop :=
  ∃ past height failed batch later,
    tr = past ++ ⟨.chain (.block height), .ok b⟩ :: (batch ++ later) ∧
      b.batch.Accounted e.classifier e.sinks failed batch

theorem ExtractedIn.later {e : Engine} {b : Block} {tr : List Exchange} (h : ExtractedIn e b tr)
    (tr' : List Exchange) : ExtractedIn e b (tr ++ tr') := by
  obtain ⟨past, height, failed, batch, later, rfl, hacc⟩ := h
  exact ⟨past, height, failed, batch, later ++ tr', by simp, hacc⟩

theorem ExtractedIn.behind {e : Engine} {b : Block} {tr : List Exchange} (h : ExtractedIn e b tr)
    (tr' : List Exchange) : ExtractedIn e b (tr' ++ tr) := by
  obtain ⟨past, height, failed, batch, later, rfl, hacc⟩ := h
  exact ⟨tr' ++ past, height, failed, batch, later, by simp, hacc⟩

namespace Exchange

/-- An exchange of the kinds that batches are made of. -/
def IsWork : Exchange → Prop
  | ⟨.chain (.transaction _), _⟩ => True
  | ⟨.chain (.mempoolTransaction _), _⟩ => True
  | ⟨.chain (.fee _ _), _⟩ => True
  | ⟨.deliver _ _ _, _⟩ => True
  | ⟨.ledger (.saveUnscanned _), _⟩ => True
  | _ => False

theorem InBatch.isWork {height : UInt64} {x : Exchange} (h : x.InBatch height) : x.IsWork := by
  obtain ⟨q, a⟩ := x
  rcases q with q | op | _ | _ | _ | _
  case chain => cases q <;> simp_all [IsWork, InBatch, IsLookup, IsDelivery, IsSaveAt]
  case ledger => cases op <;> simp_all [IsWork, InBatch, IsLookup, IsDelivery, IsSaveAt]
  all_goals simp_all [IsWork, InBatch, IsLookup, IsDelivery, IsSaveAt]

theorem IsBlockRead.not_isWork {x : Exchange} (h : x.IsBlockRead) : ¬ x.IsWork := by
  obtain ⟨q, a⟩ := x
  rcases q with q | op | _ | _ | _ | _
  case chain => cases q <;> simp_all [IsBlockRead, IsWork]
  case ledger => cases op <;> simp_all [IsBlockRead, IsWork]
  all_goals simp_all [IsBlockRead]

end Exchange

/-- Exchanges that do not begin inside a batch, and in which no batch is run right after a block was
served. -/
def neverRun (b : Block) : TraceLaw where
  Holds tr _ :=
    (∀ past h x later, tr = past ++ ⟨.chain (.block h), .ok b⟩ :: x :: later → ¬ x.IsWork) ∧
    ∀ x later, tr = x :: later → ¬ x.IsWork
  nil := by simp
  append := by
    rintro tr tr' - ⟨hserved, hhead⟩ ⟨hserved', hhead'⟩
    refine ⟨fun past h x later heq => ?_, fun x later heq => ?_⟩
    · rcases List.append_eq_append_iff.mp heq with ⟨mid, rfl, hmid⟩ | ⟨mid, rfl, hmid⟩
      · exact hserved' mid h x later hmid
      · match mid, hmid with
        | [], hmid => exact hserved' [] h x later (by simpa using hmid.symm)
        | [y], hmid =>
          obtain ⟨rfl, htail⟩ := List.cons.inj hmid
          exact hhead' x later htail.symm
        | y :: z :: mid, hmid =>
          obtain ⟨rfl, htail⟩ := List.cons.inj hmid
          obtain ⟨rfl, rfl⟩ := List.cons.inj htail
          exact hserved past h x mid rfl
    · cases tr with
      | nil => exact hhead' x later heq
      | cons y rest =>
        obtain ⟨rfl, -⟩ := List.cons.inj heq
        exact hhead y rest rfl

theorem neverRun_of_idle {b : Block} {tr : List Exchange} {h : Option Halt}
    (hidle : ∀ x ∈ tr, ¬ x.IsWork) : (neverRun b).Holds tr h := by
  refine ⟨?_, ?_⟩
  · rintro past _ x later rfl
    exact hidle x (by simp)
  · rintro x later rfl
    exact hidle x (by simp)

theorem neverRun_of_unserved {b : Block} {x : Exchange} {tr : List Exchange} {h : Option Halt}
    (hserved : ∀ h, (⟨.chain (.block h), .ok b⟩ : Exchange) ∉ x :: tr) (hhead : ¬ x.IsWork) :
    (neverRun b).Holds (x :: tr) h := by
  refine ⟨fun past h y later heq => absurd ?_ (hserved h), fun y later heq => ?_⟩
  · rw [heq]
    simp
  · obtain ⟨rfl, -⟩ := List.cons.inj heq
    exact hhead

theorem neverRun_of_batch {b b' : Block} {height : UInt64} {batch : List Exchange}
    {h : Option Halt} (hne : b' ≠ b) (hbatch : ∀ x ∈ batch, x.InBatch b'.height) :
    (neverRun b).Holds (⟨.chain (.block height), .ok b'⟩ :: batch) h := by
  refine neverRun_of_unserved (fun k hmem => ?_) (by simp [Exchange.IsWork])
  rcases List.mem_cons.mp hmem with heq | hmem
  · cases heq
    exact hne rfl
  · have hserved := hbatch _ hmem
    simp [Exchange.InBatch, Exchange.IsLookup, Exchange.IsDelivery, Exchange.IsSaveAt] at hserved

/-- The heights of the records that some exchanges save all satisfy a predicate. -/
def SavesOnly (H : UInt64 → Prop) (tr : List Exchange) : Prop :=
  ∀ r answer, (⟨.ledger (.saveUnscanned r), answer⟩ : Exchange) ∈ tr → H r.height

theorem SavesOnly.append {H : UInt64 → Prop} {tr tr' : List Exchange} (h : SavesOnly H tr)
    (h' : SavesOnly H tr') : SavesOnly H (tr ++ tr') :=
  fun r answer hx => (List.mem_append.mp hx).elim (h r answer) (h' r answer)

theorem SavesOnly.mono {H H' : UInt64 → Prop} {tr : List Exchange} (h : SavesOnly H tr)
    (hH : ∀ k, H k → H' k) : SavesOnly H' tr := fun r answer hx => hH _ (h r answer hx)

theorem savesOnly_of_idle {H : UInt64 → Prop} {tr : List Exchange}
    (hidle : ∀ x ∈ tr, ¬ x.IsWork) : SavesOnly H tr :=
  fun _ _ hx => absurd trivial (hidle _ hx)

theorem savesOnly_of_batch {height : UInt64} {tr : List Exchange}
    (h : ∀ x ∈ tr, x.InBatch height) : SavesOnly (· = height) tr := by
  intro r answer hx
  simpa [Exchange.InBatch, Exchange.IsLookup, Exchange.IsDelivery, Exchange.IsSaveAt] using h _ hx

/-! ## One iteration -/

section

variable {τ : Type} {outside : Handler τ} {N : UInt64 → Block} {tip : UInt64}

theorem accept_completes (hserves : Serves outside N tip) (e : Engine) (b : Block)
    (l : MemoryLedger) :
    Completes outside (e.accept b) l fun _ tr => ∃ failed batch,
      tr = batch ++ [⟨.ledger (.setCursor b.header.cursor), .ok ()⟩,
        ⟨.ledger (.putBlock b), .ok ()⟩, ⟨.announce b.header false, .ok ()⟩] ∧
      b.batch.Accounted e.classifier e.sinks failed batch := by
  unfold Engine.accept
  refine Completes.bind (Completes.quiet (runBatch_quiet e b.batch) (runBatch_ensures e b.batch) l)
    ?_
  rintro failed batch ⟨-, hacc⟩
  refine Completes.bind (Completes.store _ _) ?_
  rintro _ _ ⟨-, rfl⟩
  refine Completes.bind (Completes.store _ _) ?_
  rintro _ _ ⟨-, rfl⟩
  refine (Completes.announce _ (hserves.observers _ _)).mono ?_
  rintro _ _ rfl
  exact ⟨failed, batch, by simp [MemoryLedger.perform], hacc⟩

/-- What a rewind from a cursor to a block leaves behind. -/
structure Rewound (c : Cursor) (b : Block) (blocks : Index UInt64 Block) (l : MemoryLedger)
    (tr : List Exchange) : Prop where
  cursor : (l.after tr).cursor = some b.header.cursor
  blocks : (l.after tr).blocks = blocks
  announced : readOff announced? tr = (l.getBlock c.height).toList.map fun a => (a.header, true)
  cleared : ∀ entry ∈ (l.after tr).unscanned.entries, entry.2.height ≠ c.height
  idle : ∀ x ∈ tr, ¬ x.IsWork

/-- The exchanges of a rewind that finds its ancestor by the given ones. -/
def rewindTrace (c : Cursor) (b : Block) (l : MemoryLedger) (reads : List Exchange) :
    List Exchange :=
  ⟨.ledger (.deleteUnscanned c.height), .ok (l.deleteUnscanned c.height).1⟩ ::
    ⟨.ledger (.getBlock c.height), .ok (l.getBlock c.height)⟩ ::
    (reads ++ ⟨.ledger (.setCursor b.header.cursor), .ok ()⟩ ::
      ((l.getBlock c.height).toList.map (fun a => (⟨.announce a.header true, .ok ()⟩ : Exchange)) ++
        [⟨.report (.forkDetected c.height b.header.cursor.height), ()⟩]))

theorem rewind_completes (hserves : Serves outside N tip) {c : Cursor} {b : Block}
    {l : MemoryLedger} {reads : List Exchange}
    (hanc : Completes outside
      (Engine.ancestor c.height (max (lowered c.height 1) minRewindHeight))
      (l.deleteUnscanned c.height).2 fun a tr => a = some b ∧ tr = reads) :
    Completes outside (Engine.rewind c) l fun a tr =>
      a = some b.header.cursor ∧ tr = rewindTrace c b l reads := by
  unfold Engine.rewind
  refine Completes.bind (Completes.store _ _) ?_
  rintro _ _ ⟨-, rfl⟩
  refine Completes.bind (Completes.getBlock (show _ = l.getBlock c.height from rfl)) ?_
  rintro _ _ ⟨rfl, rfl⟩
  refine Completes.bind hanc ?_
  rintro _ _ ⟨rfl, rfl⟩
  refine Completes.bind (Completes.store _ _) ?_
  rintro _ _ ⟨-, rfl⟩
  unfold rewindTrace
  cases l.getBlock c.height with
  | none =>
    refine Completes.bind (Completes.report _ _) ?_
    rintro _ _ rfl
    exact Completes.done ⟨rfl, by simp [MemoryLedger.perform]⟩
  | some a =>
    refine Completes.bind (Completes.announce _ (hserves.observers _ _)) ?_
    rintro _ _ rfl
    refine Completes.bind (Completes.report _ _) ?_
    rintro _ _ rfl
    exact Completes.done ⟨rfl, by simp [MemoryLedger.perform]⟩

theorem ancestor_cached {abandoned target : UInt64} {b : Block} {l : MemoryLedger}
    (hne : target ≠ abandoned) (hcached : l.getBlock target = some b) :
    Completes outside (Engine.ancestor abandoned target) l fun a tr =>
      a = some b ∧ tr = [⟨.ledger (.getBlock target), .ok (some b)⟩] := by
  unfold Engine.ancestor
  rw [if_neg hne]
  refine Completes.bind (Completes.getBlock hcached) ?_
  rintro _ _ ⟨rfl, rfl⟩
  exact Completes.done ⟨rfl, rfl⟩

/-- How an ancestor is fetched; a clamped rewind does not look into the cache. -/
def fetchTrace (abandoned target : UInt64) (b : Block) : List Exchange :=
  (if target = abandoned then [] else [⟨.ledger (.getBlock target), .ok none⟩]) ++
    [⟨.chain (.block target), .ok b⟩, ⟨.ledger (.putBlock b), .ok ()⟩]

theorem ancestor_fetched {abandoned target : UInt64} {b : Block} {l : MemoryLedger}
    (hserved : ∀ t, (outside (.chain (.block target)) t).1 = .ok b)
    (huncached : target = abandoned ∨ l.getBlock target = none) :
    Completes outside (Engine.ancestor abandoned target) l fun a tr =>
      a = some b ∧ tr = fetchTrace abandoned target b := by
  have hclamped : ∀ l : MemoryLedger, Completes outside (Engine.ancestor target target) l
      fun a tr => a = some b ∧
        tr = [⟨.chain (.block target), .ok b⟩, ⟨.ledger (.putBlock b), .ok ()⟩] := by
    intro l
    unfold Engine.ancestor
    rw [if_pos rfl, pure_eq, bind_eq, done_bind]
    refine Completes.bind (Completes.chain l hserved) ?_
    rintro _ _ ⟨rfl, rfl⟩
    refine Completes.bind (Completes.store _ _) ?_
    rintro _ _ ⟨-, rfl⟩
    exact Completes.done ⟨rfl, by simp [MemoryLedger.perform]⟩
  unfold fetchTrace
  by_cases heq : target = abandoned
  · rw [if_pos heq, ← heq]
    exact hclamped l
  · -- what follows a miss in the cache is what a clamped rewind does at once
    have hmissed := hclamped (l.after [⟨.ledger (.getBlock target), .ok none⟩])
    unfold Engine.ancestor at hmissed ⊢
    rw [if_pos rfl] at hmissed
    rw [if_neg heq, if_neg heq]
    refine Completes.bind (Completes.getBlock (huncached.resolve_left heq)) ?_
    rintro _ _ ⟨rfl, rfl⟩
    refine hmissed.mono ?_
    rintro _ _ ⟨rfl, rfl⟩
    exact ⟨rfl, rfl⟩

theorem rewind_target {h : UInt64} (hlt : 1 < h) : max (lowered h 1) minRewindHeight = h - 1 := by
  have hlowered : lowered h 1 = h - 1 := if_pos (by grind)
  rw [hlowered]
  show (if h - 1 ≤ 1 then (1 : UInt64) else h - 1) = h - 1
  split <;> grind

theorem rewind_lowest {m : UInt64} (hm : 1 ≤ m) :
    (m = 1 ∧ max (lowered m 1) minRewindHeight = 1) ∨
      (1 < m ∧ max (lowered m 1) minRewindHeight = m - 1) := by
  rcases (show m = 1 ∨ 1 < m by grind) with rfl | hlt
  · exact .inl ⟨rfl, by decide⟩
  · exact .inr ⟨hlt, rewind_target hlt⟩

/-- The facts that the exchanges of a rewind imply. -/
theorem rewound_of_trace {c : Cursor} {b : Block} {l : MemoryLedger} {reads : List Exchange}
    (hreads : ∀ x ∈ reads, x.IsBlockRead)
    (hrecords : ((l.deleteUnscanned c.height).2.after reads).unscanned =
      (l.deleteUnscanned c.height).2.unscanned) :
    Rewound c b ((l.deleteUnscanned c.height).2.after reads).blocks l
      (rewindTrace c b l reads) := by
  have hafter : l.after (rewindTrace c b l reads) =
      ((l.deleteUnscanned c.height).2.after reads).setCursor b.header.cursor := by
    unfold rewindTrace
    cases l.getBlock c.height <;> simp [MemoryLedger.after, replay, replay_append,
      MemoryLedger.carryOut, MemoryLedger.perform]
  have hquiet : readOff announced? reads = [] := by
    refine readOff_eq_nil fun x hx => ?_
    have hread := hreads x hx
    obtain ⟨q, a⟩ := x
    cases q <;> first | rfl | exact hread.elim
  refine ⟨by rw [hafter]; rfl, by rw [hafter]; rfl, ?_, ?_, ?_⟩
  · unfold rewindTrace
    cases l.getBlock c.height <;> simp [hquiet, Exchange.announced?]
  · rw [hafter]
    intro entry hentry
    have hkept : entry ∈ ((l.deleteUnscanned c.height).2.after reads).unscanned.entries :=
      hentry
    rw [hrecords] at hkept
    simpa using (List.mem_filter.mp hkept).2
  · have hidle : ∀ x ∈ reads, ¬ x.IsWork := fun x hx => (hreads x hx).not_isWork
    unfold rewindTrace
    simp only [List.forall_mem_cons, List.forall_mem_append]
    refine ⟨id, id, hidle, id, ?_, by simp [Exchange.IsWork]⟩
    cases l.getBlock c.height <;> simp [Exchange.IsWork]

theorem rewind_to_cached (hserves : Serves outside N tip) {c : Cursor} {b : Block}
    {l : MemoryLedger} (hheight : 1 < c.height) (hcached : l.getBlock (c.height - 1) = some b) :
    Completes outside (Engine.rewind c) l fun a tr =>
      a = some b.header.cursor ∧ Rewound c b l.blocks l tr := by
  have hne : c.height - 1 ≠ c.height := by grind
  have hanc : Completes outside
      (Engine.ancestor c.height (max (lowered c.height 1) minRewindHeight))
      (l.deleteUnscanned c.height).2 fun a tr =>
        a = some b ∧ tr = [⟨.ledger (.getBlock (c.height - 1)), .ok (some b)⟩] := by
    rw [rewind_target hheight]
    exact ancestor_cached hne hcached
  have hreads : ∀ x ∈ ([⟨.ledger (.getBlock (c.height - 1)), .ok (some b)⟩] : List Exchange),
      x.IsBlockRead := by simp [Exchange.IsBlockRead]
  have hrewound := rewound_of_trace (c := c) (b := b) (l := l) hreads rfl
  refine (rewind_completes hserves hanc).mono ?_
  rintro _ _ ⟨rfl, rfl⟩
  exact ⟨rfl, hrewound⟩

theorem rewind_to_served (hserves : Serves outside N tip) {c : Cursor} {l : MemoryLedger}
    {target : UInt64} (htarget : target = max (lowered c.height 1) minRewindHeight)
    (hpos : 1 ≤ target)
    (htop : target ≤ tip) (huncached : target = c.height ∨ l.getBlock target = none) :
    Completes outside (Engine.rewind c) l fun a tr => a = some (N target).header.cursor ∧
      Rewound c (N target) (l.blocks.insert (N target).height (N target)) l tr ∧
      (⟨.chain (.block target), .ok (N target)⟩ : Exchange) ∈ tr := by
  have hanc : Completes outside
      (Engine.ancestor c.height (max (lowered c.height 1) minRewindHeight))
      (l.deleteUnscanned c.height).2 fun a tr =>
        a = some (N target) ∧ tr = fetchTrace c.height target (N target) := by
    rw [← htarget]
    exact ancestor_fetched (fun t => hserves.block target t hpos htop) huncached
  have hafter : (l.deleteUnscanned c.height).2.after (fetchTrace c.height target (N target)) =
      (l.deleteUnscanned c.height).2.putBlock (N target) := by
    unfold fetchTrace
    split <;> rfl
  have hreads : ∀ x ∈ fetchTrace c.height target (N target), x.IsBlockRead := by
    unfold fetchTrace
    split <;> simp [Exchange.IsBlockRead]
  have hrewound := rewound_of_trace (b := N target) (l := l) hreads (by rw [hafter]; rfl)
  rw [hafter] at hrewound
  refine (rewind_completes hserves hanc).mono ?_
  rintro _ _ ⟨rfl, rfl⟩
  exact ⟨rfl, hrewound, by simp [rewindTrace, fetchTrace]⟩

/-- What an iteration finds out before it goes over a block. -/
def opening (tip height : UInt64) (b : Block) : List Exchange :=
  [⟨.taskState, .running⟩, ⟨.chain .tip, .ok tip⟩, ⟨.chain (.block height), .ok b⟩]

theorem advanceOnce_over (hserves : Serves outside N tip) {e : Engine} {p : Engine.Progress}
    {l : MemoryLedger} (hlt : p.cursor.height < tip) {Q : Engine.Iteration → List Exchange → Prop}
    (hover : Completes outside (e.advanceOver p (N (p.cursor.height + 1))) l fun i tr =>
      Q i (opening tip (p.cursor.height + 1) (N (p.cursor.height + 1)) ++ tr)) :
    Completes outside (e.advanceOnce p) l Q := by
  unfold Engine.advanceOnce
  refine Completes.bind (Completes.taskState l hserves.running) ?_
  rintro _ _ ⟨rfl, rfl⟩
  refine Completes.bind (Completes.chain _ hserves.best) ?_
  rintro _ _ ⟨rfl, rfl⟩
  have hnot : ¬ tip ≤ p.cursor.height := by grind
  simp only [hnot, if_false]
  refine Completes.bind (Completes.chain _ fun t => hserves.block _ t ?_ ?_) ?_
  · have hsucc : (p.cursor.height + 1).toNat = p.cursor.height.toNat + 1 := toNat_succ hlt
    grind
  · grind
  · rintro _ _ ⟨rfl, rfl⟩
    exact hover

theorem advanceOnce_settles (hserves : Serves outside N tip) (e : Engine) {p : Engine.Progress}
    (l : MemoryLedger) (hle : tip ≤ p.cursor.height) :
    Completes outside (e.advanceOnce p) l fun i tr =>
      i = .settled ∧ tr = [⟨.taskState, .running⟩, ⟨.chain .tip, .ok tip⟩] := by
  unfold Engine.advanceOnce
  refine Completes.bind (Completes.taskState l hserves.running) ?_
  rintro _ _ ⟨rfl, rfl⟩
  refine Completes.bind (Completes.chain _ hserves.best) ?_
  rintro _ _ ⟨rfl, rfl⟩
  simp only [hle, if_true]
  exact Completes.done ⟨rfl, rfl⟩

theorem opening_idle (tip height : UInt64) (b : Block) :
    ∀ x ∈ opening tip height b, ¬ x.IsWork := by simp [opening, Exchange.IsWork]

theorem Rewound.opened {c : Cursor} {b : Block} {blocks : Index UInt64 Block} {l : MemoryLedger}
    {tr : List Exchange} (h : Rewound c b blocks l tr) (tip height : UInt64) (next : Block) :
    Rewound c b blocks l (opening tip height next ++ tr) := by
  refine ⟨h.cursor, h.blocks, ?_, h.cleared, ?_⟩
  · simpa [opening, Exchange.announced?] using h.announced
  · rw [List.forall_mem_append]
    exact ⟨opening_idle tip height next, h.idle⟩

theorem advanceOnce_rewinds (hserves : Serves outside N tip) {e : Engine} {p : Engine.Progress}
    {l : MemoryLedger} (hpos : 0 < p.cursor.height) (hlt : p.cursor.height < tip)
    (hbreaks : (N (p.cursor.height + 1)).header.previousHash ≠ p.cursor.hash) {b : Block}
    {P : List Exchange → Prop}
    (hrewind : Completes outside (Engine.rewind p.cursor) l fun a tr =>
      a = some b.header.cursor ∧ P tr) :
    Completes outside (e.advanceOnce p) l fun i tr =>
      i = .moved ⟨b.header.cursor, p.blocks, p.forks + 1⟩ ∧
        ∃ tr', tr = opening tip (p.cursor.height + 1) (N (p.cursor.height + 1)) ++ tr' ∧ P tr' := by
  refine advanceOnce_over hserves hlt ?_
  unfold Engine.advanceOver
  rw [if_pos ⟨hpos, hbreaks⟩]
  refine Completes.bind hrewind ?_
  rintro _ tr ⟨rfl, hP⟩
  exact Completes.done ⟨rfl, tr, by simp, hP⟩

/-- What the acceptance of a block leaves behind. -/
structure AcceptedOver (e : Engine) (b : Block) (l : MemoryLedger) (tr : List Exchange) :
    Prop where
  cursor : (l.after tr).cursor = some b.header.cursor
  blocks : (l.after tr).blocks = l.blocks.insert b.height b
  announced : readOff announced? tr = [(b.header, false)]
  extracted : ExtractedIn e b tr
  others : ∀ b', b ≠ b' → (neverRun b').Holds tr none
  saves : SavesOnly (· = b.height) tr

/-- The exchanges of an acceptance. -/
def acceptTrace (tip height : UInt64) (b : Block) (batch : List Exchange) (event : StatusEvent) :
    List Exchange :=
  opening tip height b ++ (batch ++ [⟨.ledger (.setCursor b.header.cursor), .ok ()⟩,
    ⟨.ledger (.putBlock b), .ok ()⟩, ⟨.announce b.header false, .ok ()⟩, ⟨.report event, ()⟩])

theorem acceptedOver_of_trace {e : Engine} {tip height : UInt64} {b : Block} {failed : List String}
    {batch : List Exchange} {event : StatusEvent} (l : MemoryLedger)
    (hacc : b.batch.Accounted e.classifier e.sinks failed batch) :
    AcceptedOver e b l (acceptTrace tip height b batch event) := by
  have hdrain : ∀ x ∈ batch, x.IsDrain := fun x hx => (hacc.1.kinds x hx).isRescan.1
  have hafter : l.after (acceptTrace tip height b batch event) =
      ((l.after batch).setCursor b.header.cursor).putBlock b := by
    simp [acceptTrace, opening, MemoryLedger.after, replay, replay_append, MemoryLedger.carryOut,
      MemoryLedger.perform]
  have hfirst : ∀ x ∈ ([⟨.taskState, .running⟩, ⟨.chain .tip, .ok tip⟩] : List Exchange),
      ¬ x.IsWork := by simp [Exchange.IsWork]
  have hserved : ∀ x ∈ ([⟨.chain (.block height), .ok b⟩] : List Exchange), ¬ x.IsWork := by
    simp [Exchange.IsWork]
  have hlast : ∀ x ∈ ([⟨.ledger (.setCursor b.header.cursor), .ok ()⟩,
      ⟨.ledger (.putBlock b), .ok ()⟩, ⟨.announce b.header false, .ok ()⟩, ⟨.report event, ()⟩] :
      List Exchange), ¬ x.IsWork := by simp [Exchange.IsWork]
  refine ⟨by rw [hafter]; rfl, ?_, ?_, ?_, fun b' hne => ?_, ?_⟩
  · rw [hafter]
    show (l.after batch).blocks.insert b.height b = l.blocks.insert b.height b
    rw [(after_isDrain hdrain l).blocks]
  · simp [acceptTrace, opening, announced_isDrain hdrain, Exchange.announced?]
  · exact ⟨[⟨.taskState, .running⟩, ⟨.chain .tip, .ok tip⟩], height, failed, batch, _, rfl, hacc⟩
  · have hbatch : (neverRun b').Holds (⟨.chain (.block height), .ok b⟩ :: batch) none :=
      neverRun_of_batch hne hacc.1.kinds
    simpa [acceptTrace, opening] using (neverRun b').append
      ((neverRun b').append (neverRun_of_idle hfirst) hbatch) (neverRun_of_idle hlast)
  · have hbatch : SavesOnly (· = b.height) batch := savesOnly_of_batch hacc.1.kinds
    simpa [acceptTrace, opening] using (savesOnly_of_idle hfirst).append
      ((savesOnly_of_idle hserved).append (hbatch.append (savesOnly_of_idle hlast)))

theorem advanceOnce_accepts (hserves : Serves outside N tip) (e : Engine) {p : Engine.Progress}
    (l : MemoryLedger) (hlt : p.cursor.height < tip)
    (hextends : p.cursor.height = 0 ∨
      (N (p.cursor.height + 1)).header.previousHash = p.cursor.hash) :
    Completes outside (e.advanceOnce p) l fun i tr =>
      i = .moved ⟨(N (p.cursor.height + 1)).header.cursor, p.blocks + 1, p.forks⟩ ∧
        AcceptedOver e (N (p.cursor.height + 1)) l tr := by
  refine advanceOnce_over hserves hlt ?_
  unfold Engine.advanceOver
  have hnot : ¬ (0 < p.cursor.height ∧
      (N (p.cursor.height + 1)).header.previousHash ≠ p.cursor.hash) := by
    rintro ⟨hpos, hne⟩
    exact hextends.elim (fun h => absurd h (by grind)) hne
  rw [if_neg hnot]
  refine Completes.bind (accept_completes hserves e _ l) ?_
  rintro _ _ ⟨failed, batch, rfl, hacc⟩
  refine Completes.bind (Completes.report _ _) ?_
  rintro _ _ rfl
  have haccepted : AcceptedOver e (N (p.cursor.height + 1)) l
      (acceptTrace tip (p.cursor.height + 1) (N (p.cursor.height + 1)) batch
        (.progress (N (p.cursor.height + 1)).header.cursor.height (p.blocks + 1))) :=
    acceptedOver_of_trace l hacc
  exact Completes.done ⟨rfl, by simpa [acceptTrace] using haccepted⟩

/-! ## Whole phases -/

theorem advance_moves {e : Engine} {fuel : Nat} {p p' : Engine.Progress} {l : MemoryLedger}
    {P : List Exchange → Prop} {Q : Engine.Progress × Option PauseReason → List Exchange → Prop}
    (hstep : Completes outside (e.advanceOnce p) l fun i tr => i = .moved p' ∧ P tr)
    (hrest : ∀ tr, P tr →
      Completes outside (e.advance fuel p') (l.after tr) fun r tr' => Q r (tr ++ tr')) :
    Completes outside (e.advance (fuel + 1) p) l Q := by
  unfold Engine.advance
  refine Completes.bind hstep ?_
  rintro _ tr ⟨rfl, hP⟩
  exact hrest tr hP

/-- What an advance from a height up to the tip of a served chain leaves behind. -/
structure Climbed (e : Engine) (N : UInt64 → Block) (low tip : UInt64) (l : MemoryLedger)
    (tr : List Exchange) : Prop where
  cursor : (l.after tr).cursor = if low < tip then some ⟨tip, (N tip).hash⟩ else l.cursor
  cached : ∀ h, low < h → h ≤ tip → (l.after tr).getBlock h = some (N h)
  below : ∀ h, h ≤ low → (l.after tr).getBlock h = l.getBlock h
  announced : readOff announced? tr = (heightsAbove low tip).map fun h => ((N h).header, false)
  extracted : ∀ h, low < h → h ≤ tip → ExtractedIn e (N h) tr
  others : ∀ b, (∀ h, low < h → h ≤ tip → N h ≠ b) → (neverRun b).Holds tr none
  saves : SavesOnly (fun h => low < h ∧ h ≤ tip) tr

theorem Climbed.here (e : Engine) (N : UInt64 → Block) {low tip : UInt64} (hle : tip ≤ low)
    (l : MemoryLedger) :
    Climbed e N low tip l [⟨.taskState, .running⟩, ⟨.chain .tip, .ok tip⟩] where
  cursor := (if_neg (by grind)).symm
  cached h hlow hhigh := absurd hlow (by grind)
  below _ _ := rfl
  announced := by simp [heightsAbove_of_le hle, Exchange.announced?]
  extracted h hlow hhigh := absurd hlow (by grind)
  others _ _ := neverRun_of_idle (by simp [Exchange.IsWork])
  saves := savesOnly_of_idle (by simp [Exchange.IsWork])

theorem Climbed.step {e : Engine} {low : UInt64} {l : MemoryLedger} {tr tr' : List Exchange}
    (hN : Linked N tip) (hlt : low < tip) (h : AcceptedOver e (N (low + 1)) l tr)
    (h' : Climbed e N (low + 1) tip (l.after tr) tr') : Climbed e N low tip l (tr ++ tr') := by
  have hle : low + 1 ≤ tip := by grind
  have hpos : 1 ≤ low + 1 := by
    have hsucc : (low + 1).toNat = low.toNat + 1 := toNat_succ hlt
    grind
  have hheight : (N (low + 1)).height = low + 1 := hN.height _ hpos hle
  have hstored : ∀ k, (l.after tr).getBlock k =
      if k = low + 1 then some (N (low + 1)) else l.getBlock k := by
    intro k
    unfold MemoryLedger.getBlock
    rw [h.blocks, hheight, Index.find?_insert]
  have hafter : l.after (tr ++ tr') = (l.after tr).after tr' := l.after_append tr tr'
  refine ⟨?_, fun k hlow hhigh => ?_, fun k hk => ?_, ?_, fun k hlow hhigh => ?_, ?_, ?_⟩
  · rw [hafter, h'.cursor, if_pos hlt]
    split
    · rfl
    · -- the acceptance already put the cursor on the tip
      have htop : low + 1 = tip := by grind
      rw [h.cursor, hN.cursor hpos hle, htop]
  · rw [hafter]
    by_cases hfirst : k = low + 1
    · rw [h'.below k (by grind), hstored, if_pos hfirst, hfirst]
    · exact h'.cached k (by grind) hhigh
  · rw [hafter, h'.below k (by grind), hstored, if_neg (by grind)]
  · rw [readOff_append, h.announced, h'.announced, heightsAbove_of_lt hlt]
    rfl
  · by_cases hfirst : k = low + 1
    · rw [hfirst]
      exact h.extracted.later tr'
    · exact (h'.extracted k (by grind) hhigh).behind tr
  · intro b hb
    refine (neverRun b).append (h.others b (hb _ (by grind) hle)) (h'.others b ?_)
    exact fun k hlow hhigh => hb k (by grind) hhigh
  · refine (h.saves.mono ?_).append (h'.saves.mono ?_)
    · rintro k rfl
      rw [hheight]
      exact ⟨by grind, hle⟩
    · rintro k ⟨hlow, hhigh⟩
      exact ⟨by grind, hhigh⟩

/-- From a block of the served chain, or from below all blocks, an advance climbs to the tip. -/
theorem advance_ascends (hserves : Serves outside N tip) (hN : Linked N tip) (htip : 1 ≤ tip)
    (e : Engine) : ∀ (n : Nat) {fuel : Nat} {p : Engine.Progress} (l : MemoryLedger),
      tip.toNat = p.cursor.height.toNat + n → n < fuel →
      (p.cursor.height = 0 ∨ p.cursor.hash = (N p.cursor.height).hash) →
      Completes outside (e.advance fuel p) l fun r tr =>
        r = (⟨⟨tip, (N tip).hash⟩, p.blocks + n, p.forks⟩, none) ∧
          Climbed e N p.cursor.height tip l tr
  | 0, fuel + 1, ⟨⟨height, hash⟩, blocks, forks⟩, l, hn, _, hmatch => by
    obtain rfl : tip = height := UInt64.toNat_inj.mp (by simpa using hn)
    have hhash : hash = (N tip).hash := hmatch.resolve_left (by grind)
    unfold Engine.advance
    refine Completes.bind (advanceOnce_settles hserves e l (by grind)) ?_
    rintro _ _ ⟨rfl, rfl⟩
    refine Completes.done ⟨by rw [hhash]; rfl, ?_⟩
    exact Climbed.here e N (UInt64.le_refl _) l
  | n + 1, fuel + 1, p, l, hn, hfuel, hmatch => by
    have hlt : p.cursor.height < tip := UInt64.lt_iff_toNat_lt.mpr (by omega)
    have hsucc : (p.cursor.height + 1).toNat = p.cursor.height.toNat + 1 := toNat_succ hlt
    have hpos : 1 ≤ p.cursor.height + 1 := by grind
    have hle : p.cursor.height + 1 ≤ tip := by grind
    have hextends : p.cursor.height = 0 ∨
        (N (p.cursor.height + 1)).header.previousHash = p.cursor.hash := by
      refine (Decidable.em (p.cursor.height = 0)).imp_right fun hne => ?_
      rw [hN.link _ (by grind) hlt, hmatch.resolve_left hne]
    refine advance_moves (advanceOnce_accepts hserves e l hlt hextends) fun tr haccepted => ?_
    rw [hN.cursor hpos hle]
    refine (advance_ascends hserves hN htip e n (l.after tr) ?_ (by omega) ?_).mono ?_
    · show tip.toNat = (p.cursor.height + 1).toNat + n
      omega
    · exact .inr rfl
    · rintro _ tr' ⟨rfl, hclimbed⟩
      refine ⟨?_, Climbed.step hN hlt haccepted hclimbed⟩
      rw [Nat.add_assoc, Nat.add_comm 1 n]

/-- What a descent along cached blocks leaves behind. -/
structure Descended (O : UInt64 → Block) (low high : UInt64) (l : MemoryLedger)
    (tr : List Exchange) : Prop where
  cursor : (l.after tr).cursor = if low < high then some ⟨low, (O low).hash⟩ else l.cursor
  blocks : (l.after tr).blocks = l.blocks
  announced : readOff announced? tr =
    (heightsAbove low high).reverse.map fun h => ((O h).header, true)
  idle : ∀ x ∈ tr, ¬ x.IsWork

theorem Descended.getBlock {O : UInt64 → Block} {low high : UInt64} {l : MemoryLedger}
    {tr : List Exchange} (h : Descended O low high l tr) (height : UInt64) :
    (l.after tr).getBlock height = l.getBlock height := by
  unfold MemoryLedger.getBlock
  rw [h.blocks]

theorem Descended.here (O : UInt64 → Block) (low : UInt64) (l : MemoryLedger) :
    Descended O low low l [] where
  cursor := (if_neg (by grind)).symm
  blocks := rfl
  announced := by simp [heightsAbove_of_le (UInt64.le_refl low)]
  idle := by simp

theorem Descended.step {O : UInt64 → Block} {low : UInt64} {c : Cursor} {l : MemoryLedger}
    {tr tr' : List Exchange} (hlt : low < c.height)
    (hstored : ∀ h, low ≤ h → h ≤ c.height → l.getBlock h = some (O h) ∧ (O h).height = h)
    (h : Rewound c (O (c.height - 1)) l.blocks l tr)
    (h' : Descended O low (c.height - 1) (l.after tr) tr') :
    Descended O low c.height l (tr ++ tr') := by
  have hafter : l.after (tr ++ tr') = (l.after tr).after tr' := l.after_append tr tr'
  refine ⟨?_, ?_, ?_, ?_⟩
  · rw [hafter, h'.cursor, if_pos hlt]
    split
    · rfl
    · have hbottom : c.height - 1 = low := by grind
      have hheight : (O low).header.height = low := (hstored low (by grind) (by grind)).2
      rw [h.cursor, hbottom]
      unfold BlockHeader.cursor Block.hash
      rw [hheight]
  · rw [hafter, h'.blocks, h.blocks]
  · rw [readOff_append, h.announced, h'.announced, (hstored c.height (by grind) (by grind)).1,
      heightsAbove_snoc hlt, List.reverse_append]
    rfl
  · rw [List.forall_mem_append]
    exact ⟨h.idle, h'.idle⟩

/-- While the served chain contradicts the cached blocks, an advance follows these down. -/
theorem advance_descends (hserves : Serves outside N tip) (hN : Linked N tip) (e : Engine)
    {O : UInt64 → Block} {low : UInt64} (hlow : 1 ≤ low) :
    ∀ (n : Nat) {fuel : Nat} {p : Engine.Progress} (l : MemoryLedger)
      {Q : Engine.Progress × Option PauseReason → List Exchange → Prop},
      p.cursor.height.toNat = low.toNat + n → p.cursor.height < tip →
      p.cursor.hash = (O p.cursor.height).hash →
      (∀ h, low ≤ h → h ≤ p.cursor.height → l.getBlock h = some (O h) ∧ (O h).height = h) →
      (∀ h, low < h → h ≤ p.cursor.height → (O h).hash ≠ (N h).hash) →
      (∀ tr, Descended O low p.cursor.height l tr →
        Completes outside (e.advance fuel ⟨⟨low, (O low).hash⟩, p.blocks, p.forks + n⟩)
          (l.after tr) fun r tr' => Q r (tr ++ tr')) →
      Completes outside (e.advance (fuel + n) p) l Q
  | 0, fuel, ⟨⟨height, hash⟩, blocks, forks⟩, l, Q, hn, _, hhash, _, _, hrest => by
    obtain rfl : height = low := UInt64.toNat_inj.mp (by simpa using hn)
    rw [show hash = (O height).hash from hhash]
    exact hrest [] (Descended.here O height l)
  | n + 1, fuel, p, l, Q, hn, hlt, hhash, hstored, hapart, hrest => by
    have habove : low < p.cursor.height := UInt64.lt_iff_toNat_lt.mpr (by omega)
    have hpred : (p.cursor.height - 1).toNat = p.cursor.height.toNat - 1 := toNat_pred (by grind)
    have hbelow := hstored (p.cursor.height - 1) (by grind) (by grind)
    have hheight : (O (p.cursor.height - 1)).header.height = p.cursor.height - 1 := hbelow.2
    have hcursor : (O (p.cursor.height - 1)).header.cursor =
        ⟨p.cursor.height - 1, (O (p.cursor.height - 1)).hash⟩ := by
      unfold BlockHeader.cursor Block.hash
      rw [hheight]
    have hbreaks : (N (p.cursor.height + 1)).header.previousHash ≠ p.cursor.hash := by
      rw [hN.link _ (by grind) hlt, hhash]
      exact (hapart _ habove (by grind)).symm
    refine advance_moves (advanceOnce_rewinds hserves (by grind) hlt hbreaks
      (rewind_to_cached hserves (by grind) hbelow.1)) ?_
    rintro _ ⟨tr, rfl, hrewound⟩
    have hopened := hrewound.opened tip (p.cursor.height + 1) (N (p.cursor.height + 1))
    rw [hcursor]
    refine advance_descends hserves hN e hlow n _ ?_ ?_ rfl ?_ ?_ fun tr' hdescended => ?_
    · show (p.cursor.height - 1).toNat = low.toNat + n
      omega
    · show p.cursor.height - 1 < tip
      grind
    · intro h hlo hhi
      refine ⟨?_, (hstored h hlo (by grind)).2⟩
      unfold MemoryLedger.getBlock
      rw [hopened.blocks]
      exact (hstored h hlo (by grind)).1
    · exact fun h hlo hhi => hapart h hlo (by grind)
    · have hall := hrest _ (Descended.step habove hstored hopened hdescended)
      simpa only [Nat.add_assoc, Nat.add_comm 1 n, List.append_assoc, MemoryLedger.after,
        replay_append] using hall

/-! ## Whole cycles -/

/-- The exchanges of a cycle that is not interrupted and had a cursor to start from. -/
def cycleTrace (start : Cursor) (p : Engine.Progress) (tr tr' : List Exchange) : List Exchange :=
  ⟨.report (.started start.height), ()⟩ ::
    (tr ++ ⟨.report (.completed p.cursor.height p.blocks), ()⟩ :: tr')

theorem after_cycleTrace (start : Cursor) (p : Engine.Progress) (tr tr' : List Exchange)
    (l : MemoryLedger) : l.after (cycleTrace start p tr tr') = (l.after tr).after tr' := by
  simp [cycleTrace, MemoryLedger.after, replay, replay_append]

theorem drain_completes (e : Engine) (c : Cursor) (l : MemoryLedger) :
    Completes outside (e.drain c) l fun _ tr => ∀ x ∈ tr, x.IsDrain :=
  (Completes.quiet (Engine.drain_quiet e c) (Engine.drain_quiet e c) l).mono fun _ _ h => h.1

theorem announced_cycleTrace (start : Cursor) (p : Engine.Progress) (tr tr' : List Exchange) :
    readOff announced? (cycleTrace start p tr tr') =
      readOff announced? tr ++ readOff announced? tr' := by
  simp [cycleTrace, Exchange.announced?]

theorem cycleFrom_completes {e : Engine} {fuel : Nat} {start : Cursor} {l : MemoryLedger}
    {P : Engine.Progress → List Exchange → Prop}
    {D : Engine.Progress → List Exchange → List Exchange → Prop}
    (hadvance : Completes outside (e.advance fuel ⟨start, 0, 0⟩) l fun r tr =>
      r.2 = none ∧ P r.1 tr)
    (hdrain : ∀ p tr, P p tr →
      Completes outside (e.drain p.cursor) (l.after tr) fun _ tr' => D p tr tr') :
    Completes outside (e.cycleFrom fuel start) l fun report tr => ∃ p tr₁ tr₂,
      tr = cycleTrace start p tr₁ tr₂ ∧ P p tr₁ ∧ D p tr₁ tr₂ ∧
        report.startHeight = start.height ∧ report.finalHeight = p.cursor.height ∧
        report.blocksScanned = p.blocks ∧ report.forks = p.forks ∧
        report.interrupted = false := by
  unfold Engine.cycleFrom
  refine Completes.bind (Completes.report _ _) ?_
  rintro _ _ rfl
  refine Completes.bind hadvance ?_
  rintro ⟨p, _⟩ tr ⟨rfl, hP⟩
  refine Completes.bind (Completes.report _ _) ?_
  rintro _ _ rfl
  refine Completes.bind (hdrain p tr hP) ?_
  rintro ⟨retried, purged⟩ tr' hD
  exact Completes.done ⟨p, tr, tr', by simp [cycleTrace], hP, hD, rfl, rfl, rfl, rfl, rfl⟩

end

end WalletScan
