import WalletScan.Proofs.Batches
import WalletScan.Cycle

/-!
# What the parts of a cycle ask

Each part of a cycle keeps to a kind of exchange, and each ends with the first ledger operation that
fails.  An advance deletes records only height by height; what follows it leaves the cursor, the
cached blocks and the observers alone.
-/

set_option autoImplicit false

namespace WalletScan

open Script

/-! ## Kinds of exchanges -/

/-- An operation that touches neither the cursor nor the cached blocks. -/
def LedgerOp.KeepsPosition : LedgerOp → Prop
  | .setCursor _ => False
  | .putBlock _ => False
  | .deleteBlocksAbove _ => False
  | _ => True

namespace Exchange

/-- A cursor write. -/
def MovesCursor : Exchange → Prop
  | ⟨.ledger (.setCursor _), _⟩ => True
  | _ => False

/-- A deletion that only a retry pass makes. -/
def IsRetryDeletion : Exchange → Prop
  | ⟨.ledger (.deleteUnscannedByReason _), _⟩ => True
  | ⟨.ledger (.deleteUnscannedRecord _ _), _⟩ => True
  | _ => False

/-- The reading, fetching or caching of a block. -/
def IsBlockRead : Exchange → Prop
  | ⟨.ledger (.getBlock _), _⟩ => True
  | ⟨.chain (.block _), _⟩ => True
  | ⟨.ledger (.putBlock _), _⟩ => True
  | _ => False

/-- A word to the observers, or about the progress of a cycle. -/
def IsNotice : Exchange → Prop
  | ⟨.announce _ _, _⟩ => True
  | ⟨.report _, _⟩ => True
  | _ => False

/-- What is asked once the advance is over: nothing that moves the cursor, changes the cached blocks
or reaches an observer. -/
def IsDrain : Exchange → Prop
  | ⟨.chain _, _⟩ => True
  | ⟨.deliver _ _ _, _⟩ => True
  | ⟨.ledger op, _⟩ => op.KeepsPosition
  | _ => False

/-- What is asked between the advance and the retry pass. -/
def IsRescan (x : Exchange) : Prop := x.IsDrain ∧ ¬ x.IsRetryDeletion

/-- Blocks are asked for, and records are saved, at heights of a kind only. -/
def Within (H : UInt64 → Prop) : Exchange → Prop
  | ⟨.chain (.block h), _⟩ => h ≠ 0 ∧ H h
  | ⟨.ledger (.saveUnscanned r), _⟩ => H r.height
  | _ => True

/-- What is asked between the advance and the retry pass, at heights of a kind only. -/
def IsRescanAt (H : UInt64 → Prop) (x : Exchange) : Prop := x.IsRescan ∧ x.Within H

/-- What is asked once the advance is over, at heights of a kind only. -/
def IsDrainAt (H : UInt64 → Prop) (x : Exchange) : Prop := x.IsDrain ∧ x.Within H

theorem IsRescanAt.isDrainAt {H : UInt64 → Prop} {x : Exchange} (h : x.IsRescanAt H) :
    x.IsDrainAt H := ⟨h.1.1, h.2⟩

theorem InBatch.isRescan {height : UInt64} {x : Exchange} (h : x.InBatch height) :
    x.IsRescan := by
  obtain ⟨q, a⟩ := x
  rcases q with _ | op | _ | _ | _ | _
  case ledger =>
    cases op <;> simp_all [InBatch, IsLookup, IsDelivery, IsSaveAt, IsRescan, IsDrain,
      LedgerOp.KeepsPosition, IsRetryDeletion]
  all_goals simp_all [InBatch, IsLookup, IsDelivery, IsSaveAt, IsRescan, IsDrain, IsRetryDeletion]

theorem InBatch.isRescanAt {height : UInt64} {H : UInt64 → Prop} {x : Exchange}
    (h : x.InBatch height) (hH : H height) : x.IsRescanAt H := by
  refine ⟨h.isRescan, ?_⟩
  obtain ⟨q, a⟩ := x
  rcases q with q | op | _ | _ | _ | _
  case chain => cases q <;> simp_all [Within, InBatch, IsLookup, IsDelivery, IsSaveAt]
  case ledger => cases op <;> simp_all [Within, InBatch, IsLookup, IsDelivery, IsSaveAt]
  all_goals trivial

theorem IsBlockRead.not_isRetryDeletion {x : Exchange} (h : x.IsBlockRead) :
    ¬ x.IsRetryDeletion := by
  obtain ⟨q, a⟩ := x
  rcases q with _ | op | _ | _ | _ | _
  case ledger => cases op <;> simp_all [IsBlockRead, IsRetryDeletion]
  all_goals simp [IsRetryDeletion]

theorem IsBlockRead.not_movesCursor {x : Exchange} (h : x.IsBlockRead) : ¬ x.MovesCursor := by
  obtain ⟨q, a⟩ := x
  rcases q with _ | op | _ | _ | _ | _
  case ledger => cases op <;> simp_all [IsBlockRead, MovesCursor]
  all_goals simp [MovesCursor]

theorem IsNotice.not_movesCursor {x : Exchange} (h : x.IsNotice) : ¬ x.MovesCursor := by
  obtain ⟨q, a⟩ := x
  cases q <;> simp_all [IsNotice, MovesCursor]

theorem IsDrain.not_movesCursor {x : Exchange} (h : x.IsDrain) : ¬ x.MovesCursor := by
  obtain ⟨q, a⟩ := x
  rcases q with _ | op | _ | _ | _ | _
  case ledger => cases op <;> simp_all [IsDrain, LedgerOp.KeepsPosition, MovesCursor]
  all_goals simp [MovesCursor]

end Exchange

open Exchange

namespace Engine

/-! ## The advance -/

theorem chainHash_quiet {K : Exchange → Prop} {height : UInt64}
    (hblock : ∀ answer, K ⟨.chain (.block height), answer⟩) : (chainHash height).Quiet K := by
  unfold chainHash
  refine Obeys.bind (Quiet.chain hblock) ?_
  rintro (cause | b) <;> exact Obeys.done _

theorem start_quiet : start.Quiet IsRescan := by
  unfold start
  refine Obeys.bind (Quiet.store fun _ => ⟨trivial, id⟩) fun stored => ?_
  cases Option.filter (fun c : Cursor => !c.isEmpty) stored with
  | some c => exact Obeys.done _
  | none =>
    refine Obeys.bind (Quiet.chain fun _ => ⟨trivial, id⟩) ?_
    rintro (cause | tip)
    · exact Obeys.done _
    · by_cases h : lowered tip 1 = 0
      · simp only [h, if_true]
        exact Obeys.done _
      · simp only [h, if_false]
        refine Obeys.bind (chainHash_quiet fun _ => ⟨trivial, id⟩) ?_
        rintro (cause | hash) <;> exact Obeys.done _

theorem ancestor_quiet (abandoned target : UInt64) :
    (ancestor abandoned target).Quiet IsBlockRead := by
  unfold ancestor
  extract_lets rest
  have hrest : ∀ cached, (rest cached).Quiet IsBlockRead := by
    rintro (_ | b)
    · refine Obeys.bind (Quiet.chain fun _ => trivial) ?_
      rintro (cause | b)
      · exact Obeys.done _
      · exact Obeys.bind (Quiet.store fun _ => trivial) fun _ => Obeys.done _
    · exact Obeys.done _
  split
  · exact hrest none
  · exact Obeys.bind (Quiet.store fun _ => trivial) hrest

theorem rewind_orderly (cursor : Cursor) :
    (rewind cursor).Orderly fun x => ¬ x.IsRetryDeletion := by
  unfold rewind
  refine Obeys.bind (Quiet.store fun _ => id).orderly fun deleted => ?_
  refine Obeys.bind (Quiet.store fun _ => id).orderly fun abandoned => ?_
  refine Obeys.bind ((ancestor_quiet _ _).mono fun x hx => hx.not_isRetryDeletion).orderly ?_
  rintro (_ | b)
  · exact Obeys.done _
  · refine Obeys.bind (Quiet.store fun _ => id).orderly fun _ => ?_
    cases abandoned with
    | none => exact Obeys.bind (Quiet.report id).orderly fun _ => Obeys.done _
    | some a =>
      refine Obeys.bind (Orderly.announce fun _ => id) fun _ => ?_
      exact Obeys.bind (Quiet.report id).orderly fun _ => Obeys.done _

theorem accept_orderly (e : Engine) (b : Block) :
    (e.accept b).Orderly fun x => ¬ x.IsRetryDeletion := by
  unfold accept
  refine Obeys.bind ((runBatch_quiet e _).mono fun x hx => hx.isRescan.2).orderly fun _ => ?_
  refine Obeys.bind (Quiet.store fun _ => id).orderly fun _ => ?_
  refine Obeys.bind (Quiet.store fun _ => id).orderly fun _ => ?_
  exact Orderly.announce fun _ => id

theorem advanceOver_orderly (e : Engine) (p : Progress) (b : Block) :
    (e.advanceOver p b).Orderly fun x => ¬ x.IsRetryDeletion := by
  unfold advanceOver
  split
  · refine Obeys.bind (rewind_orderly _) ?_
    rintro (_ | rewound) <;> exact Obeys.done _
  · refine Obeys.bind (accept_orderly e b) fun _ => ?_
    exact Obeys.bind (Quiet.report id).orderly fun _ => Obeys.done _

/-- An iteration that does not end at once goes over the block that the chain source serves. -/
theorem advanceOnce_obeys {law : TraceLaw} (e : Engine) (p : Progress)
    (htask : ∀ state, law.Holds [⟨.taskState, state⟩] none)
    (htip : ∀ answer, law.Holds [⟨.chain .tip, answer⟩] none)
    (hfailed : ∀ height cause, law.Holds [⟨.chain (.block height), .error cause⟩] none)
    (hover : ∀ tip height b, (e.advanceOver p b).ObeysAfter
      [⟨.chain .tip, .ok tip⟩, ⟨.chain (.block height), .ok b⟩] law) :
    (e.advanceOnce p).Obeys law := by
  unfold advanceOnce
  refine Obeys.bind (Obeys.query htask) fun state => ?_
  cases state with
  | stopped => exact Obeys.done _
  | idle => exact Obeys.done _
  | paused => exact Obeys.done _
  | running =>
    rintro (cause | tip)
    · exact htip _
    · by_cases hle : tip ≤ p.cursor.height
      · simp only [done_bind, hle, if_true]
        exact htip _
      · simp only [done_bind, hle, if_false]
        rintro (cause | b)
        · exact law.append (htip (.ok tip)) (hfailed _ cause)
        · exact hover tip _ b

theorem advance_obeys {law : TraceLaw} (e : Engine) (hhalt : law.Holds [] (some .exhausted))
    (honce : ∀ p, (e.advanceOnce p).Obeys law) :
    ∀ (fuel : Nat) (p : Progress), (e.advance fuel p).Obeys law
  | 0, _ => hhalt
  | fuel + 1, p => by
    unfold advance
    refine Obeys.bind (honce p) ?_
    rintro (p | _ | reason)
    · exact advance_obeys e hhalt honce fuel p
    · exact Obeys.done _
    · exact Obeys.done _

theorem advance_orderly (e : Engine) (fuel : Nat) (p : Progress) :
    (e.advance fuel p).Orderly fun x => ¬ x.IsRetryDeletion := by
  refine advance_obeys e (Orderly.halt (α := Unit) .exhausted) (fun p => ?_) fuel p
  refine advanceOnce_obeys e p ?_ ?_ ?_ ?_
  · exact fun state => orderly_single id (by simp)
  · exact fun answer => orderly_single id (by simp)
  · exact fun height cause => orderly_single id (by simp)
  · intro tip height b
    refine Obeys.after (advanceOver_orderly e p b) ?_
    have htip : (TraceLaw.orderly fun x => ¬ x.IsRetryDeletion).Holds
        [⟨.chain .tip, .ok tip⟩] none := orderly_single id (by simp)
    exact TraceLaw.append _ htip (orderly_single id (by simp))

/-! ## The drain -/

section

variable {H : UInt64 → Prop}

theorem rescanBlocks_quiet (e : Engine) : ∀ heights : List UInt64,
    (∀ h ∈ heights, h ≠ 0 ∧ H h) → (e.rescanBlocks heights).Quiet (IsRescanAt H)
  | [], _ => Obeys.done _
  | height :: rest, hH => by
    rw [List.forall_mem_cons] at hH
    unfold rescanBlocks rescanBlock
    refine Obeys.bind (Obeys.bind (Quiet.chain fun _ => ⟨⟨trivial, id⟩, hH.1⟩) ?_)
      fun _ => rescanBlocks_quiet e rest hH.2
    rintro (cause | b)
    · exact Quiet.store fun _ => ⟨⟨trivial, id⟩, hH.1.2⟩
    · exact Obeys.bind ((runBatch_quiet e _).mono fun x hx => hx.isRescanAt hH.1.2) fun _ =>
        Obeys.done _

theorem scanMempool_quiet (e : Engine) (hzero : H 0) : e.scanMempool.Quiet (IsRescanAt H) := by
  unfold scanMempool
  refine Obeys.bind (Quiet.chain fun _ => ⟨⟨trivial, id⟩, trivial⟩) ?_
  rintro (cause | txids)
  · exact Obeys.done _
  · exact Obeys.bind ((runBatch_quiet e _).mono fun x hx => hx.isRescanAt hzero) fun _ =>
      Obeys.done _

theorem resolveHash_quiet {K : Exchange → Prop} {height : UInt64}
    (hcached : ∀ answer, K ⟨.ledger (.getBlock height), answer⟩)
    (hblock : height ≠ 0 → ∀ answer, K ⟨.chain (.block height), answer⟩) :
    (resolveHash height).Quiet K := by
  unfold resolveHash
  split
  · exact Obeys.done _
  · rename_i hne
    refine Obeys.bind (Quiet.store hcached) ?_
    rintro (_ | b)
    · refine Obeys.bind (chainHash_quiet (hblock hne)) ?_
      rintro (cause | hash) <;> exact Obeys.done _
    · exact Obeys.done _

theorem retryBatch_quiet {height : UInt64} (hne : height ≠ 0) (hH : H height)
    (records : List UnscannedRecord) : (retryBatch height records).Quiet (IsRescanAt H) := by
  unfold retryBatch
  split
  · refine Obeys.bind (Quiet.chain fun _ => ⟨⟨trivial, id⟩, hne, hH⟩) ?_
    rintro (cause | b) <;> exact Obeys.done _
  · exact Obeys.bind (resolveHash_quiet (fun _ => ⟨⟨trivial, id⟩, trivial⟩)
      fun _ _ => ⟨⟨trivial, id⟩, hne, hH⟩) fun _ => Obeys.done _

end

/-- What the records of a height are tried again with: the block that the chain serves if one of
them asks for it, which fails if the chain serves none, or else their own transactions. -/
theorem retryBatch_ensures (height : UInt64) (records : List UnscannedRecord) :
    (retryBatch height records).Ensures fun tr r =>
      match r with
      | .ok none => records.any UnscannedRecord.isBlockLevel = true ∧
          ∃ cause, tr = [⟨.chain (.block height), .error cause⟩]
      | .ok (some batch) =>
        (records.any UnscannedRecord.isBlockLevel = true ∧
          ∃ b, tr = [⟨.chain (.block height), .ok b⟩] ∧
            batch = .block height b.hash b.transactions) ∨
        (records.any UnscannedRecord.isBlockLevel = false ∧
          (∀ x ∈ tr, x.IsBlockRead ∧ x.Within (· = height)) ∧
            ∃ hash, batch = .block height hash (records.map (·.txid)))
      | .error _ => True := by
  unfold retryBatch
  split
  · rename_i hlevel
    rintro (cause | b)
    · exact ⟨hlevel, cause, rfl⟩
    · exact .inl ⟨hlevel, b, rfl, rfl⟩
  · rename_i hlevel
    have hreads : (resolveHash height).Quiet fun x => x.IsBlockRead ∧ x.Within (· = height) :=
      resolveHash_quiet (fun _ => ⟨trivial, trivial⟩) fun hne _ => ⟨trivial, hne, rfl⟩
    refine Ensures.bind hreads ?_ fun _ _ _ => trivial
    rintro tr hash ⟨⟨hkinds, -⟩, -⟩
    refine .inr ⟨by simpa using hlevel, ?_, hash, rfl⟩
    simpa using hkinds

/-- A retry batch is one of its height. -/
theorem retryBatch_height (height : UInt64) (records : List UnscannedRecord) :
    (retryBatch height records).Ensures fun _ r => ∀ batch, r = .ok (some batch) →
      batch.height = height := by
  refine Ensures.mono (retryBatch_ensures height records) ?_
  rintro tr _ h batch rfl
  rcases h with ⟨-, b, -, rfl⟩ | ⟨-, -, hash, rfl⟩ <;> rfl

section

variable {H : UInt64 → Prop}

theorem dropSettled_quiet (height : UInt64) (failing : List String) :
    ∀ records, (dropSettled height failing records).Quiet (IsDrainAt H)
  | [] => Obeys.done _
  | r :: rest => by
    unfold dropSettled
    split
    · exact dropSettled_quiet height failing rest
    · exact Obeys.bind (Quiet.store fun _ => ⟨trivial, trivial⟩) fun _ =>
        dropSettled_quiet height failing rest

theorem retryHeight_quiet (e : Engine) {height : UInt64} (hH : H height)
    (records : List UnscannedRecord) : (e.retryHeight height records).Quiet (IsDrainAt H) := by
  unfold retryHeight
  split
  · exact Obeys.bind (Quiet.store fun _ => ⟨trivial, trivial⟩) fun _ => Obeys.done _
  · rename_i hne
    refine Obeys.bind_of ((retryBatch_quiet hne hH records).mono fun x hx => hx.isDrainAt)
      (retryBatch_height height records) ?_
    rintro tr (_ | batch) hheight
    · exact Obeys.done _
    · have hbatch : H batch.height := hheight batch rfl ▸ hH
      refine Obeys.bind ((runBatch_quiet e batch).mono fun x hx =>
        (hx.isRescanAt hbatch).isDrainAt) fun failing => ?_
      exact Obeys.bind (dropSettled_quiet height failing records) fun _ => Obeys.done _

theorem retryHeights_quiet (e : Engine) : ∀ groups : HeightGroups,
    (∀ group ∈ groups, H group.1) → (e.retryHeights groups).Quiet (IsDrainAt H)
  | [], _ => Obeys.done _
  | (height, records) :: rest, hH => by
    rw [List.forall_mem_cons] at hH
    unfold retryHeights
    refine Obeys.bind (retryHeight_quiet e hH.1 records) fun tried => ?_
    exact Obeys.bind (retryHeights_quiet e rest hH.2) fun others => Obeys.done _

end

theorem retry_quiet (e : Engine) : e.retry.Quiet IsDrain := by
  unfold retry
  refine Obeys.bind (Quiet.store fun _ => trivial) fun purged => ?_
  refine Obeys.bind (Quiet.store fun _ => trivial) fun records => ?_
  have hheights : (e.retryHeights (groupByHeight records)).Quiet (IsDrainAt fun _ => True) :=
    retryHeights_quiet e _ fun _ _ => trivial
  exact Obeys.bind (hheights.mono fun x hx => hx.1) fun retried => Obeys.done _

theorem mem_rescanHeights {c : Cursor} {count h : UInt64} :
    h ∈ rescanHeights c count ↔ h ≠ 0 ∧ lowered c.height count ≤ h ∧ h < c.height := by
  have hle : lowered c.height count ≤ c.height := by
    unfold lowered
    split <;> grind
  have hnat : (lowered c.height count).toNat ≤ c.height.toNat := UInt64.le_iff_toNat_le.mp hle
  have hsub : (c.height - lowered c.height count).toNat =
      c.height.toNat - (lowered c.height count).toNat := UInt64.toNat_sub_of_le _ _ hle
  have hbound : c.height.toNat < 2 ^ 64 := c.height.toNat_lt
  unfold rescanHeights
  simp only [List.mem_filter, List.mem_map, List.mem_range, bne_iff_ne, hsub]
  constructor
  · rintro ⟨⟨i, hi, rfl⟩, hne⟩
    refine ⟨hne, UInt64.le_iff_toNat_le.mpr ?_, UInt64.lt_iff_toNat_lt.mpr ?_⟩
    · rw [UInt64.toNat_add, UInt64.toNat_ofNat']
      omega
    · rw [UInt64.toNat_add, UInt64.toNat_ofNat']
      omega
  · rintro ⟨hne, hlow, hhigh⟩
    have hlow' : (lowered c.height count).toNat ≤ h.toNat := UInt64.le_iff_toNat_le.mp hlow
    have hhigh' : h.toNat < c.height.toNat := UInt64.lt_iff_toNat_lt.mp hhigh
    refine ⟨⟨h.toNat - (lowered c.height count).toNat, by omega, ?_⟩, hne⟩
    rw [← UInt64.toNat_inj, UInt64.toNat_add, UInt64.toNat_ofNat']
    omega

/-! ## The whole cycle -/

section

variable {law : TraceLaw}

/-- A law that quiet parts keep holds of what follows an advance if the retry pass keeps it. -/
theorem drain_obeys (e : Engine) (cursor : Cursor)
    (hrescan : ∀ {tr : List Exchange} {h : Option Halt},
      (TraceLaw.quiet IsRescan).Holds tr h → law.Holds tr h)
    (hretry : e.retry.Obeys law) : (e.drain cursor).Obeys law := by
  have hquiet : ∀ {p : Script Unit}, p.Quiet (IsRescanAt fun _ => True) → p.Obeys law :=
    fun h => Ensures.mono (h.mono fun x hx => hx.1) fun _ _ => hrescan
  unfold drain
  have hrescans := rescanBlocks_quiet (H := fun _ => True) e
    (rescanHeights cursor e.config.rescanCount) fun h hh => ⟨(mem_rescanHeights.mp hh).1, trivial⟩
  refine Obeys.bind (hquiet hrescans) fun _ => ?_
  split
  · exact Obeys.bind (hquiet (scanMempool_quiet e trivial)) fun _ => hretry
  · exact hretry

theorem drain_quiet (e : Engine) (cursor : Cursor) : (e.drain cursor).Quiet IsDrain :=
  drain_obeys e cursor (fun h => ⟨⟨fun x hx => (h.1.1 x hx).1, h.1.2⟩, h.2⟩) (retry_quiet e)

/-- A law that quiet parts keep holds of a cycle if the advance and the retry pass keep it. -/
theorem cycle_obeys (e : Engine) (fuel : Nat)
    (hrescan : ∀ {tr : List Exchange} {h : Option Halt},
      (TraceLaw.quiet IsRescan).Holds tr h → law.Holds tr h)
    (hreport : ∀ event, law.Holds [⟨.report event, ()⟩] none)
    (hadvance : ∀ p, (e.advance fuel p).Obeys law) (hretry : e.retry.Obeys law) :
    (e.cycle fuel).Obeys law := by
  unfold cycle
  refine Obeys.bind (Ensures.mono start_quiet fun _ _ => hrescan) ?_
  rintro (cause | cursor)
  · exact Obeys.done _
  · unfold cycleFrom
    refine Obeys.bind (fun _ => hreport _) fun _ => ?_
    refine Obeys.bind (hadvance _) ?_
    rintro ⟨p, _ | reason⟩
    · refine Obeys.bind (fun _ => hreport _) fun _ => ?_
      exact Obeys.bind (drain_obeys e p.cursor hrescan hretry) fun _ => Obeys.done _
    · exact Obeys.bind (fun _ => hreport _) fun _ => Obeys.done _

end

end Engine

/-- An engine without sinks and without addresses of its own. -/
def bareEngine : Engine := ⟨⟨.default, fun _ => none⟩, 0, .default⟩

end WalletScan
