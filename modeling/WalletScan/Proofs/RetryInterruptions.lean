import WalletScan.Proofs.FaultyLedgers
import WalletScan.Proofs.Markers
import WalletScan.Proofs.RetryPass

/-!
# A retry pass that is interrupted

A retry pass saves the failures of a batch first and deletes the records that are settled
afterwards, height by height.  Here it is cut off after any of its exchanges, by a crash or by a
ledger that refuses an operation.

* `HeightCut` — how far the records of one height can have been dealt with; every beginning of such
  exchanges is one again (`HeightCut.earlier`).
* `HeightCut.safe` — at each of these points a listed transaction is marked, unless it is excused.
* `interrupted_retry_keeps_markers` — the same for the whole pass over a ledger of either kind.

Specification: section 4.3, a crash in the middle of the retry pass.
-/

set_option autoImplicit false

namespace WalletScan

open Script
open Exchange (saved?)

/-! ## One height -/

/-- How far the records of a height can have been dealt with. -/
inductive HeightCut (e : Engine) (height : UInt64) (records : List UnscannedRecord) :
    List Exchange → Prop
  /-- Nothing was deleted so far. -/
  | pending {tr : List Exchange} (htr : ∀ x ∈ tr, ¬ x.DeletesRecords) :
    HeightCut e height records tr
  /-- Records of the mempool were dropped. -/
  | cleared {tr : List Exchange} (hzero : height = 0)
    (htr : ∀ x ∈ tr, x.1 = .ledger (.deleteUnscanned 0)) : HeightCut e height records tr
  /-- The batch was run to its end, and some records of transactions that did not fail in it were
  deleted. -/
  | dropping {batch : Batch} {failed : List String} {reads run drops : List Exchange}
    (hne : height ≠ 0) (hbatch : RetriedWith height records batch reads)
    (hreads : ∀ x ∈ reads, x.IsBlockRead) (hrun : (e.runBatch batch).Admits run (.ok failed))
    (hdrops : ∀ x ∈ drops, ∃ r ∈ records, r.txid ∉ failed ∧
      x.1 = .ledger (.deleteUnscannedRecord height r.txid)) :
    HeightCut e height records (reads ++ (run ++ drops))

theorem retryBatch_reads (height : UInt64) (records : List UnscannedRecord) :
    (Engine.retryBatch height records).Quiet Exchange.IsBlockRead := by
  unfold Engine.retryBatch
  split
  · refine Obeys.bind (Quiet.chain fun _ => trivial) ?_
    rintro (cause | b) <;> exact Obeys.done _
  · exact Obeys.bind (Engine.resolveHash_quiet (fun _ => trivial) fun _ _ => trivial) fun _ =>
      Obeys.done _

theorem dropSettled_drops (height : UInt64) (failed : List String) :
    ∀ records, (Engine.dropSettled height failed records).Quiet fun x =>
      ∃ r ∈ records, r.txid ∉ failed ∧ x.1 = .ledger (.deleteUnscannedRecord height r.txid)
  | [] => Obeys.done _
  | r :: rest => by
    have hrest := (dropSettled_drops height failed rest).mono fun x hx =>
      show ∃ r' ∈ r :: rest, r'.txid ∉ failed ∧ _ from
        hx.imp fun _ h => ⟨List.mem_cons_of_mem _ h.1, h.2⟩
    unfold Engine.dropSettled
    split
    · exact hrest
    · rename_i hsettled
      have hnot : r.txid ∉ failed := fun hmem => hsettled (List.contains_iff_mem.mpr hmem)
      exact Obeys.bind (Quiet.store fun _ => ⟨r, List.mem_cons_self, hnot, rfl⟩) fun _ => hrest

/-- Wherever the records of a height are left off, they were dealt with so far. -/
theorem retryHeight_cut (e : Engine) (height : UInt64) (records : List UnscannedRecord) :
    (e.retryHeight height records).Ensures fun tr _ => HeightCut e height records tr := by
  unfold Engine.retryHeight
  split
  · rename_i hzero
    have hclears : (Script.store (.deleteUnscanned 0)).Quiet
        fun x => x.1 = .ledger (.deleteUnscanned 0) := Quiet.store fun _ => rfl
    have hboth : ((Script.store (.deleteUnscanned 0)).bind fun _ => Script.done false).Quiet
        fun x => x.1 = .ledger (.deleteUnscanned 0) := Obeys.bind hclears fun _ => Obeys.done _
    exact hboth.orderly.only.mono fun tr _ htr => .cleared hzero htr
  · rename_i hne
    refine Ensures.bind (Ensures.and (Engine.retryBatch_ensures height records)
      (retryBatch_reads height records).orderly.only) ?_ ?_
    · rintro reads (_ | batch) ⟨hbatch, hreads⟩
      · refine .pending fun x hx => ?_
        rw [List.append_nil] at hx
        exact (hreads x hx).not_deletesRecords
      · have hwith : RetriedWith height records batch reads := .of_reads hbatch
        refine Ensures.bind (Ensures.and (ensures_admits (e.runBatch batch))
          (runBatch_quiet e batch).orderly.only) ?_ ?_
        · rintro run failed ⟨hrun, -⟩
          have hdropped : ((Engine.dropSettled height failed records).bind fun _ =>
              Script.done true).Quiet fun x => ∃ r ∈ records, r.txid ∉ failed ∧
                x.1 = .ledger (.deleteUnscannedRecord height r.txid) :=
            Obeys.bind (dropSettled_drops height failed records) fun _ => Obeys.done _
          exact hdropped.orderly.only.mono fun drops _ hdrops =>
            .dropping hne hwith hreads hrun hdrops
        · rintro run halt ⟨-, hkinds⟩
          refine .pending fun x hx => ?_
          rcases List.mem_append.mp hx with hx | hx
          · exact (hreads x hx).not_deletesRecords
          · exact (hkinds x hx).not_deletesRecords
    · rintro reads halt ⟨-, hreads⟩
      exact .pending fun x hx => (hreads x hx).not_deletesRecords

namespace HeightCut

variable {e : Engine} {height : UInt64} {all records R : List UnscannedRecord}
  {tr tr' : List Exchange}

theorem nil : HeightCut e height R [] := .pending (by simp)

/-- What was done so far is where an earlier cut would have come. -/
theorem earlier (h : HeightCut e height R (tr ++ tr')) : HeightCut e height R tr := by
  generalize heq : tr ++ tr' = whole at h
  cases h with
  | pending htr => exact .pending fun x hx => htr x (by simp [← heq, hx])
  | cleared hzero htr => exact .cleared hzero fun x hx => htr x (by simp [← heq, hx])
  | @dropping batch failed reads run drops hne hbatch hreads hrun hdrops =>
    have hkinds : ∀ x ∈ run, ¬ x.DeletesRecords := fun x hx =>
      ((recorded_of_admits hbatch.height hrun).kinds x hx).not_deletesRecords
    rcases List.append_eq_append_iff.mp heq with ⟨mid, rfl, hmid⟩ | ⟨mid, rfl, hmid⟩
    · exact .pending fun x hx => (hreads x (by simp [hx])).not_deletesRecords
    · rcases List.append_eq_append_iff.mp hmid with ⟨mid', rfl, hmid'⟩ | ⟨mid', rfl, hmid'⟩
      · exact .dropping hne hbatch hreads hrun fun x hx => hdrops x (by simp [hmid', hx])
      · refine .pending fun x hx => ?_
        rcases List.mem_append.mp hx with hx | hx
        · exact (hreads x hx).not_deletesRecords
        · exact hkinds x (by simp [hx])

/-- Records of other heights are not deleted. -/
theorem spares (h : HeightCut e height R tr) {other : UInt64} (hne : other ≠ height)
    (txid : String) : ∀ x ∈ tr, x.Spares other txid := by
  rintro ⟨q, a⟩ hx
  cases h with
  | pending htr => exact Exchange.spares_of_not_deletesRecords (htr _ hx)
  | cleared hzero htr =>
    obtain rfl : q = .ledger (.deleteUnscanned 0) := htr _ hx
    exact fun heq => hne (heq.symm.trans hzero.symm)
  | dropping hnonzero hbatch hreads hrun hdrops =>
    rcases List.mem_append.mp hx with hx | hx
    · exact Exchange.spares_of_not_deletesRecords (hreads _ hx).not_deletesRecords
    rcases List.mem_append.mp hx with hx | hx
    · have hkind := (recorded_of_admits hbatch.height hrun).kinds _ hx
      exact Exchange.spares_of_not_deletesRecords hkind.not_deletesRecords
    · obtain ⟨r, -, -, hop⟩ := hdrops _ hx
      obtain rfl : q = .ledger (.deleteUnscannedRecord height r.txid) := hop
      exact fun heq => hne heq.1.symm

/-- Deletions name records of the height. -/
theorem deletes_among (h : HeightCut e height R tr) (hR : ∀ r ∈ R, r ∈ all ∧ r.height = height)
    {op : LedgerOp} {answer : Except LedgerError op.Answer}
    (hx : (⟨.ledger op, answer⟩ : Exchange) ∈ tr)
    (hdeletes : Exchange.DeletesRecords ⟨.ledger op, answer⟩) : op.Among all := by
  cases h with
  | pending htr => exact absurd hdeletes (htr _ hx)
  | cleared hzero htr =>
    obtain rfl : op = .deleteUnscanned 0 := Query.ledger.inj (htr _ hx)
    trivial
  | dropping hne hbatch hreads hrun hdrops =>
    rcases List.mem_append.mp hx with hx | hx
    · exact absurd hdeletes (hreads _ hx).not_deletesRecords
    rcases List.mem_append.mp hx with hx | hx
    · have hkind := (recorded_of_admits hbatch.height hrun).kinds _ hx
      exact absurd hdeletes hkind.not_deletesRecords
    · obtain ⟨r, hr, -, hop⟩ := hdrops _ hx
      obtain rfl : op = .deleteUnscannedRecord height r.txid := Query.ledger.inj hop
      exact ⟨r, (hR r hr).1, (hR r hr).2, rfl⟩

end HeightCut

/-! ## What is left at any point -/

/-- Why the record of a transaction at a height may be gone in the middle of a pass.  Given are the
listed records of the height, the exchanges so far and the records that are left. -/
inductive Excused (e : Engine) (height : UInt64) (txid : String) (records : List UnscannedRecord)
    (tr : List Exchange) (left : List UnscannedRecord) : Prop
  /-- A batch of the height fetched and classified the transaction, and every sink took it. -/
  | delivered {hash : String} {txids : List String}
    (h : (Batch.block height hash txids).Delivered e.classifier e.sinks txid tr) :
    Excused e height txid records tr left
  /-- A record asked for the whole block, which was served and does not list the transaction, and
  each transaction that it lists was delivered or is marked. -/
  | replaced {b : Block} (hlevel : records.any UnscannedRecord.isBlockLevel = true)
    (hserved : (⟨.chain (.block height), .ok b⟩ : Exchange) ∈ tr)
    (hlisted : ∀ u ∈ b.transactions,
      (Batch.block height b.hash b.transactions).Delivered e.classifier e.sinks u tr ∨
        Marked height u left)
    (hnot : txid ∉ b.transactions) : Excused e height txid records tr left

section

variable {e : Engine} {height : UInt64} {txid : String}
  {all records R left left' : List UnscannedRecord} {tr tr' : List Exchange}

theorem Excused.mono (h : Excused e height txid R tr left) (hsub : tr ⊆ tr')
    (hleft : ∀ u, Marked height u left → Marked height u left') :
    Excused e height txid R tr' left' := by
  cases h with
  | delivered h => exact .delivered (h.mono hsub)
  | replaced hlevel hserved hlisted hnot =>
    refine .replaced hlevel (hsub hserved) (fun u hu => ?_) hnot
    exact (hlisted u hu).imp (fun h => h.mono hsub) (hleft u)

/-- **At any point a listed record of a height is left or excused.** -/
theorem HeightCut.safe (hall : Distinct all) (hrecords : records ⊆ all)
    (hops : OperatesAmong all tr) (h : HeightCut e height R tr) (hne : height ≠ 0)
    {r : UnscannedRecord} (hr : r ∈ R)
    (hmarked : Marked height r.txid records) :
    Marked height r.txid (recordsAfter records tr) ∨
      Excused e height r.txid R tr (recordsAfter records tr) := by
  cases h with
  | pending htr =>
    refine .inl (hmarked.after hall hrecords hops fun x hx => ?_)
    exact Exchange.spares_of_not_deletesRecords (htr x hx)
  | cleared hzero htr => exact absurd hzero hne
  | @dropping batch failed reads run drops hnonzero hbatch hreads hrun hdrops =>
    have hrecorded : Recorded height failed run := recorded_of_admits hbatch.height hrun
    have hacc : batch.Accounted e.classifier e.sinks failed run :=
      hrun.ensures (runBatch_ensures e batch)
    obtain ⟨-, hlaterOps⟩ := operatesAmong_append.mp hops
    obtain ⟨hrunOps, hdropOps⟩ := operatesAmong_append.mp hlaterOps
    rw [recordsAfter_append, recordsAfter_append,
      recordsAfter_reads (fun x hx => hreads x hx) records]
    -- what failed in the batch is marked when it ends, and nothing deletes it afterwards
    have hfailing : ∀ u ∈ failed,
        Marked height u (recordsAfter (recordsAfter records run) drops) := by
      intro u hu
      refine (hrecorded.marked hall hrecords hrunOps hu).after hall
        (recordsAfter_subset hrunOps hrecords) hdropOps fun x hx => ?_
      obtain ⟨r', -, hsettled, hop⟩ := hdrops x hx
      obtain ⟨q, a⟩ := x
      obtain rfl : q = .ledger (.deleteUnscannedRecord height r'.txid) := hop
      exact fun heq => hsettled (heq.2 ▸ hu)
    have hsub : run ⊆ reads ++ (run ++ drops) := fun x hx => by simp [hx]
    by_cases hfails : r.txid ∈ failed
    · exact .inl (hfailing _ hfails)
    · right
      rcases hbatch with ⟨hlevel, earlier, b, rfl, rfl⟩ | ⟨hlevel, hash, rfl⟩
      · by_cases hlisted : r.txid ∈ b.transactions
        · exact .delivered (((hacc.2 _ hlisted).resolve_right hfails).mono hsub)
        · refine .replaced hlevel (by simp) (fun u hu => ?_) hlisted
          exact (hacc.2 u hu).imp (fun h => h.mono hsub) (hfailing u)
      · have hlisted : r.txid ∈ R.map (·.txid) := List.mem_map_of_mem hr
        exact .delivered (((hacc.2 _ hlisted).resolve_right hfails).mono hsub)

/-! ## All heights -/

/-- How far the heights of some groups can have been dealt with, one after the other. -/
inductive HeightsCut (e : Engine) : Engine.HeightGroups → List Exchange → Prop
  | nil : HeightsCut e [] []
  | cons {height : UInt64} {R : List UnscannedRecord} {rest : Engine.HeightGroups}
    {tr tr' : List Exchange} (hfirst : HeightCut e height R tr) (hrest : HeightsCut e rest tr') :
    HeightsCut e ((height, R) :: rest) (tr ++ tr')

namespace HeightsCut

variable {groups : Engine.HeightGroups}

theorem untouched : ∀ groups : Engine.HeightGroups, HeightsCut e groups []
  | [] => .nil
  | _ :: rest => by
    show HeightsCut e _ ([] ++ [])
    exact .cons .nil (untouched rest)

theorem earlier (h : HeightsCut e groups (tr ++ tr')) : HeightsCut e groups tr := by
  generalize heq : tr ++ tr' = whole at h
  induction h generalizing tr with
  | nil =>
    obtain ⟨rfl, -⟩ := List.append_eq_nil_iff.mp heq
    exact .nil
  | @cons height R rest first later hfirst hrest ih =>
    rcases List.append_eq_append_iff.mp heq with ⟨mid, rfl, -⟩ | ⟨mid, rfl, hmid⟩
    · have hcut := HeightsCut.cons hfirst.earlier (untouched (e := e) rest)
      rwa [List.append_nil] at hcut
    · exact .cons hfirst (ih hmid.symm)

theorem spares (h : HeightsCut e groups tr) (hne : ∀ g ∈ groups, height ≠ g.1) (txid : String) :
    ∀ x ∈ tr, x.Spares height txid := by
  induction h with
  | nil => simp
  | cons hfirst hrest ih =>
    rw [List.forall_mem_cons] at hne
    rw [List.forall_mem_append]
    exact ⟨hfirst.spares hne.1 txid, ih hne.2⟩

theorem deletes_among (h : HeightsCut e groups tr)
    (hgroups : ∀ g ∈ groups, ∀ r ∈ g.2, r ∈ all ∧ r.height = g.1) {op : LedgerOp}
    {answer : Except LedgerError op.Answer} (hx : (⟨.ledger op, answer⟩ : Exchange) ∈ tr)
    (hdeletes : Exchange.DeletesRecords ⟨.ledger op, answer⟩) : op.Among all := by
  induction h with
  | nil => cases hx
  | cons hfirst hrest ih =>
    rw [List.forall_mem_cons] at hgroups
    rcases List.mem_append.mp hx with hx | hx
    · exact hfirst.deletes_among hgroups.1 hx hdeletes
    · exact ih hgroups.2 hx

/-- **At any point a listed record is left or excused.** -/
theorem safe (hall : Distinct all) (hsorted : groups.Pairwise fun g g' => g.1 < g'.1)
    (hgroups : ∀ g ∈ groups, ∀ r ∈ g.2, r ∈ all ∧ r.height = g.1) (hrecords : records ⊆ all)
    (hops : OperatesAmong all tr) (h : HeightsCut e groups tr)
    (hmarked : ∀ g ∈ groups, ∀ r ∈ g.2, Marked g.1 r.txid records) :
    ∀ g ∈ groups, g.1 ≠ 0 → ∀ r ∈ g.2, Marked g.1 r.txid (recordsAfter records tr) ∨
      Excused e g.1 r.txid g.2 tr (recordsAfter records tr) := by
  induction h generalizing records with
  | nil => simp
  | @cons height R rest tr tr' hfirst hrest ih =>
    obtain ⟨hhead, htail⟩ := List.pairwise_cons.mp hsorted
    rw [List.forall_mem_cons] at hgroups hmarked
    obtain ⟨hops₁, hops₂⟩ := operatesAmong_append.mp hops
    have hsubset : recordsAfter records tr ⊆ all := recordsAfter_subset hops₁ hrecords
    have habove : ∀ g ∈ rest, height ≠ g.1 := fun g hg => UInt64.ne_of_lt (hhead g hg)
    rw [recordsAfter_append, List.forall_mem_cons]
    constructor
    · intro hne r hr
      have hkept : ∀ u, Marked height u (recordsAfter records tr) →
          Marked height u (recordsAfter (recordsAfter records tr) tr') := fun u hu =>
        hu.after hall hsubset hops₂ (hrest.spares habove u)
      refine (hfirst.safe hall hrecords hops₁ hne hr (hmarked.1 r hr)).imp (hkept _) ?_
      exact fun h => h.mono (List.subset_append_left _ _) hkept
    · intro g hg hne r hr
      have hstill : ∀ g ∈ rest, ∀ r ∈ g.2, Marked g.1 r.txid (recordsAfter records tr) := by
        intro g hg r hr
        refine (hmarked.2 g hg r hr).after hall hrecords hops₁ ?_
        exact hfirst.spares (habove g hg).symm r.txid
      refine (ih htail hgroups.2 hsubset hops₂ hstill g hg hne r hr).imp_right fun h => ?_
      exact h.mono (List.subset_append_right _ _) fun _ hu => hu

end HeightsCut

theorem retryHeights_cut (e : Engine) : ∀ groups : Engine.HeightGroups,
    (e.retryHeights groups).Ensures fun tr _ => HeightsCut e groups tr
  | [] => .nil
  | (height, R) :: rest => by
    unfold Engine.retryHeights
    refine Ensures.bind (retryHeight_cut e height R) ?_ ?_
    · intro tr tried hfirst
      refine Ensures.bind (retryHeights_cut e rest) ?_ fun tr' _ hrest => .cons hfirst hrest
      intro tr' others hrest
      show HeightsCut e _ (tr ++ (tr' ++ []))
      rw [List.append_nil]
      exact .cons hfirst hrest
    · intro tr halt hfirst
      have hcut := HeightsCut.cons hfirst (HeightsCut.untouched (e := e) rest)
      rwa [List.append_nil] at hcut

/-- What comes after the opening of a pass deals with the listed records. -/
theorem retry_cut (e : Engine) :
    e.retry.Ensures fun tr _ => ∀ purged listed later, tr = retryOpening purged listed ++ later →
      HeightsCut e (Engine.groupByHeight listed) later := by
  unfold Engine.retry
  refine Ensures.bind (store_ensures _) ?_ ?_
  · rintro _ purged (⟨answer, rfl, ⟨⟩⟩ | ⟨cause, -, ⟨⟩⟩)
    refine Ensures.bind (store_ensures _) ?_ ?_
    · rintro _ listed (⟨answer, rfl, ⟨⟩⟩ | ⟨cause, -, ⟨⟩⟩)
      have hboth : ((e.retryHeights (Engine.groupByHeight listed)).bind fun retried =>
          Script.done (retried, purged)).Ensures fun tr _ =>
            HeightsCut e (Engine.groupByHeight listed) tr := by
        refine Ensures.bind (retryHeights_cut e _) ?_ fun tr _ h => h
        intro tr retried h
        show HeightsCut e _ (tr ++ [])
        rwa [List.append_nil]
      refine hboth.mono fun tr r h purged' listed' later heq => ?_
      simp only [retryOpening, List.cons_append, List.nil_append, List.cons.injEq] at heq
      obtain ⟨-, hlist, rfl⟩ := heq
      cases hlist
      exact h
    · rintro _ halt (⟨listed, -, ⟨⟩⟩ | ⟨cause, rfl, -⟩)
      simp [retryOpening]
  · rintro _ halt (⟨purged, -, ⟨⟩⟩ | ⟨cause, rfl, -⟩)
    simp [retryOpening]

end

/-! ## Saved records -/

theorem retryHeights_savesComputed (e : Engine) :
    ∀ groups : Engine.HeightGroups, (e.retryHeights groups).Obeys savesComputed
  | [] => Obeys.done _
  | (height, R) :: rest => by
    unfold Engine.retryHeights Engine.retryHeight
    refine Obeys.bind ?_ fun tried => ?_
    · split
      · exact Obeys.bind (store_savesComputed fun _ => trivial) fun _ => Obeys.done _
      · refine Obeys.bind (Ensures.mono (retryBatch_reads height R).orderly.only ?_) ?_
        · exact fun tr _ hreads x hx => (hreads x hx).savesComputed
        · rintro (_ | batch)
          · exact Obeys.done _
          · refine Obeys.bind (runBatch_savesComputed e batch) fun failed => ?_
            refine Obeys.bind (Ensures.mono (dropSettled_drops height failed R).orderly.only ?_)
              fun _ => Obeys.done _
            rintro tr _ hdrops ⟨q, a⟩ hx
            obtain ⟨r, -, -, hop⟩ := hdrops _ hx
            obtain rfl : q = .ledger (.deleteUnscannedRecord height r.txid) := hop
            trivial
    · exact Obeys.bind (retryHeights_savesComputed e rest) fun _ => Obeys.done _

/-- What comes after the opening of a pass saves records under computed identifiers. -/
theorem retry_savesComputed (e : Engine) : e.retry.Obeys savesComputed := by
  unfold Engine.retry
  refine Obeys.bind (store_savesComputed fun _ => trivial) fun purged => ?_
  refine Obeys.bind (store_savesComputed fun _ => trivial) fun listed => ?_
  exact Obeys.bind (retryHeights_savesComputed e _) fun _ => Obeys.done _

/-! ## The whole pass -/

/-- Exchanges that succeeded operate among some records if their saves and deletions do. -/
theorem operatesAmong_of {all : List UnscannedRecord} {tr : List Exchange}
    (hclean : ∀ x ∈ tr, ¬ x.LedgerFailed) (hsaved : readOff saved? tr ⊆ all)
    (hdeletes : ∀ (op : LedgerOp) answer, (⟨.ledger op, answer⟩ : Exchange) ∈ tr →
      Exchange.DeletesRecords ⟨.ledger op, answer⟩ → op.Among all) : OperatesAmong all tr := by
  intro op answer hx
  cases op
  case saveUnscanned r =>
    rcases answer with cause | ⟨⟩
    · exact absurd trivial (hclean _ hx)
    · exact hsaved (mem_saved.mpr hx)
  case deleteUnscanned height => trivial
  case deleteUnscannedRecord height txid => exact hdeletes _ answer hx trivial
  case deleteUnscannedByReason lead => exact hdeletes _ answer hx trivial
  all_goals trivial

/-- **An interrupted retry pass loses no marker.**  A pass goes over a ledger of either kind whose
records carry their computed identifiers, and which may refuse operations by any plan; the chain
source and the sinks answer anything.  Cut the pass off after any of its exchanges: each record that
was listed at a height above zero still has one in its place, unless its transaction was delivered
in this pass, or gave way to those of the block that was fetched again.  SHA-256 is taken to keep
apart the texts that occur. -/
theorem interrupted_retry_keeps_markers {τ : Type} (e : Engine) (outside : Handler τ) {l : Ledger}
    {plan : List (Option LedgerError)} {t : τ} {purged : Nat} {listed : List UnscannedRecord}
    {before after : List Exchange}
    (htrace : (e.retry.run (amid FaultyLedger.perform outside) (⟨l, plan⟩, t)).trace =
      retryOpening purged listed ++ (before ++ after))
    (hkept : l.WellKept)
    (hapart : Set.InjOn Sha256.hexOfText
      {text | ∃ r ∈ l.records ++ readOff saved? before,
        text = UnscannedRecord.text r.height r.txid}) :
    let left := (replay FaultyLedger.perform ⟨l, plan⟩
      (retryOpening purged listed ++ before)).ledger.records
    listed.Perm (l.records.filter fun r => !beginsWith unknownTransactionLead r.reason) ∧
      ∀ r ∈ listed, r.height ≠ 0 → Marked r.height r.txid left ∨
        Excused e r.height r.txid (recordsAt r.height listed) before left := by
  intro left
  have hcut := (retry_cut e).run (amid FaultyLedger.perform outside) (⟨l, plan⟩, t) _ _ _ htrace
  have hcomputed := (retry_savesComputed e).run (amid FaultyLedger.perform outside) (⟨l, plan⟩, t)
  have hlast := ((Engine.retry_quiet e).run (amid FaultyLedger.perform outside) (⟨l, plan⟩, t)).1.2
  have hanswered : Answered FaultyLedger.perform ⟨l, plan⟩
      (e.retry.run (amid FaultyLedger.perform outside) (⟨l, plan⟩, t)).trace := answered_run _ _ _
  rw [htrace] at hcomputed hlast hanswered
  -- only the last exchange can have failed, and then it changed nothing
  obtain ⟨done, failed, rfl, hdone, hfaultless, hreplayed⟩ := faulty_cut hanswered hlast
    (by simp [retryOpening, Exchange.LedgerFailed])
  have hcut : HeightsCut e (Engine.groupByHeight listed) done := hcut.earlier.earlier
  -- all records that occur
  set all := l.records ++ readOff saved? done
  have hl : l.records ⊆ all := List.subset_append_left _ _
  have hall : Distinct all := by
    refine ⟨fun r hr => ?_, hapart.mono ?_⟩
    · rcases List.mem_append.mp hr with hr | hr
      · exact hkept.computed r hr
      · exact hcomputed ⟨.ledger (.saveUnscanned r), .ok ()⟩ (by simp [mem_saved.mp hr])
    · rintro _ ⟨r, hr, rfl⟩
      refine ⟨r, ?_, rfl⟩
      rw [readOff_append, ← List.append_assoc]
      exact List.mem_append_left _ hr
  obtain ⟨-, hlisted⟩ := retryOpening_answers (answered_append.mp hfaultless).1
  refine ⟨hlisted, fun r hr hne => ?_⟩
  have hgrouped := Engine.groupByHeight_grouped listed
  -- the records that the purge leaves
  set rest := l.records.filter fun r => !beginsWith unknownTransactionLead r.reason
  have hrest : rest ⊆ all := fun r hr => hl (List.mem_filter.mp hr).1
  have hgroups := hgrouped.among fun r hr => hrest (hlisted.subset hr)
  have hops : OperatesAmong all done := operatesAmong_of hdone (List.subset_append_right _ _)
    fun op answer hx hdeletes => hcut.deletes_among hgroups hx hdeletes
  have hafter : left = recordsAfter rest done := by
    show (replay FaultyLedger.perform ⟨l, plan⟩ _).ledger.records = _
    rw [hreplayed]
    exact replay_records hall hkept.keyed hl
      (operatesAmong_append.mpr ⟨retryOpening_among purged listed, hops⟩)
  have hmarked : ∀ g ∈ Engine.groupByHeight listed, ∀ r ∈ g.2, Marked g.1 r.txid rest := by
    intro g hg r hr
    obtain ⟨hmem, hheight⟩ := hgrouped.among (fun _ h => h) g hg r hr
    have hmem' : r ∈ rest := hlisted.subset hmem
    exact ⟨r, hmem', hheight ▸ hall.computed r (hrest hmem'), hheight, rfl⟩
  obtain ⟨g, hg, hheight⟩ := hgrouped.covers r hr
  have hsafe := hcut.safe hall hgrouped.sorted hgroups hrest hops hmarked g hg (hheight ▸ hne) r
    (by rw [hgrouped.records_eq g hg]; simpa [hheight] using hr)
  rw [hgrouped.records_eq g hg, hheight] at hsafe
  rw [hafter]
  exact hsafe.imp_right fun h => h.mono (List.subset_append_left _ _) fun _ hu => hu

open Rehearsal

/-- The pass over the patchy ledger, which may refuse operations. -/
def patchyPass (plan : List (Option LedgerError)) : Run (FaultyLedger × World) (Nat × Nat) :=
  bareEngine.retry.run (amid FaultyLedger.perform World.handle)
    (⟨patchyLedger, plan⟩, patchyWorld)

/-- A plan that refuses to drop the record of the block. -/
def refusedDrop : List (Option LedgerError) := [none, none, none, some (.unexpected "down")]

set_option maxRecDepth 10000 in
theorem patchyPass_opens : (patchyPass []).trace =
    retryOpening 1 [.of 4 "" "no block"] ++ ((patchyPass []).trace.drop 2 ++ []) := by
  with_unfolding_all rfl

/-- The record of the block gives way to that of the transaction that fails.  If the ledger refuses
to drop it, both are there when the pass ends. -/
theorem patchyPass_interrupted :
    (patchyPass []).state.1.ledger.records.map (fun r => (r.height, r.txid)) = [(4, "u4")] ∧
    Excused bareEngine 4 "" [.of 4 "" "no block"] ((patchyPass []).trace.drop 2)
      (patchyPass []).state.1.ledger.records ∧
    (patchyPass refusedDrop).result = .error (.failed (.ledger (.unexpected "down"))) ∧
    (patchyPass refusedDrop).state.1.ledger.records.map (fun r => (r.height, r.txid)) =
      [(4, "u4"), (4, "")] := by
  have hrecords : (patchyPass []).state.1.ledger.records.map (fun r => (r.height, r.txid)) =
      [(4, "u4")] := by decide +kernel
  refine ⟨hrecords, ?_, by decide +kernel, by decide +kernel⟩
  have htrace := patchyPass_opens
  have hkept : patchyLedger.WellKept := empty_wellKept.saving (by simp [UnscannedRecord.of])
  obtain ⟨-, hsafe⟩ := interrupted_retry_keeps_markers bareEngine World.handle htrace hkept
    (injOn_hexOfText (by decide +kernel))
  have hleft : (replay FaultyLedger.perform ⟨patchyLedger, []⟩
      (retryOpening 1 [.of 4 "" "no block"] ++ (patchyPass []).trace.drop 2)) =
        (patchyPass []).state.1 := by
    rw [← List.append_nil ((patchyPass []).trace.drop 2), ← htrace]
    exact (amid_replay _ _ _).symm
  rw [hleft] at hsafe
  refine (hsafe _ List.mem_cons_self (by decide)).resolve_left ?_
  rintro ⟨r, hr, -, hheight, htxid⟩
  have hmem : (r.height, r.txid) ∈ [((4 : UInt64), "u4")] := hrecords ▸ List.mem_map_of_mem hr
  have hother : "" = "u4" := htxid.symm.trans (congrArg Prod.snd (List.mem_singleton.mp hmem))
  exact absurd hother (by decide)

end WalletScan
