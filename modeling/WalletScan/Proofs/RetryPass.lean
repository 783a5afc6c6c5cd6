import Mathlib.Data.List.Dedup
import WalletScan.Proofs.HeightGroups
import WalletScan.Proofs.HeightRetry
import WalletScan.Rehearsal.World

/-!
# What a retry pass does to the records

The retry pass purges, groups the records by height, and tries each height again.

* `Outcome` — what the pass makes of a height.
* `HeightsTried.outcome` — each of the heights that are dealt with has its outcome, whatever happens
  to the others.
* `purge_records` — what the purge leaves of a ledger of either kind.
* `retry_effect` — which records a ledger of either kind holds after the pass, whatever the chain
  source and the sinks answer.

Specification: section 4.3.
-/

set_option autoImplicit false

namespace WalletScan

open Script
open Exchange (saved?)

/-! ## What becomes of a height -/

/-- The records of a height. -/
def recordsAt (height : UInt64) (records : List UnscannedRecord) : List UnscannedRecord :=
  records.filter fun r => r.height == height

theorem mem_recordsAt {height : UInt64} {records : List UnscannedRecord} {r : UnscannedRecord} :
    r ∈ recordsAt height records ↔ r ∈ records ∧ r.height = height := by
  unfold recordsAt
  rw [List.mem_filter, beq_iff_eq]

/-- What a retry pass makes of a height.  Given are the records of the height that the purge left,
the exchanges of the pass, the records of the height after it, and whether a batch was run. -/
inductive Outcome (e : Engine) (height : UInt64) (records : List UnscannedRecord)
    (tr : List Exchange) (left : List UnscannedRecord) : Bool → Prop
  /-- There was nothing to try. -/
  | idle (hnone : records = []) (hleft : left = []) : Outcome e height records tr left false
  /-- Records of the mempool were dropped. -/
  | dropped (hzero : height = 0) (hleft : left = []) : Outcome e height records tr left false
  /-- A record asks for the whole block, and the chain source did not serve it: nothing changed. -/
  | unserved {cause : ChainError} (hne : height ≠ 0)
    (hlevel : records.any UnscannedRecord.isBlockLevel = true)
    (hasked : (⟨.chain (.block height), .error cause⟩ : Exchange) ∈ tr)
    (hleft : left.Perm records) : Outcome e height records tr left false
  /-- A batch was run: one record is left for each transaction that failed in it, and it is the last
  one that the batch saved for the transaction. -/
  | redone {batch : Batch} {failed : List String} {past run later : List Exchange}
    (hne : height ≠ 0) (hsome : records ≠ []) (htr : tr = past ++ (run ++ later))
    (hbatch : RetriedWith height records batch past)
    (hserved : records.any UnscannedRecord.isBlockLevel = true → ∀ cause,
      (⟨.chain (.block height), .error cause⟩ : Exchange) ∉ tr)
    (hrun : (e.runBatch batch).Admits run (.ok failed)) (hfailed : failed ⊆ batch.txids)
    (htxids : (left.map (·.txid)).Perm failed.dedup) (hreasons : ∀ r ∈ left, SavedLast run r) :
    Outcome e height records tr left true

theorem RetriedWith.after {height : UInt64} {records : List UnscannedRecord} {batch : Batch}
    {past : List Exchange} (before : List Exchange) (h : RetriedWith height records batch past) :
    RetriedWith height records batch (before ++ past) := by
  rcases h with ⟨hlevel, earlier, b, rfl, hbatch⟩ | h
  · exact .inl ⟨hlevel, before ++ earlier, b, by rw [List.append_assoc], hbatch⟩
  · exact .inr h

section

variable {e : Engine} {height : UInt64} {all records R left left' : List UnscannedRecord}
  {tried : Bool} {tr before later : List Exchange}

/-- What surrounds the exchanges of a height does not change what becomes of it. -/
theorem Outcome.within (h : Outcome e height R tr left tried) (hleft : left'.Perm left)
    (hbefore : AsksNoBlock height before) (hlater : AsksNoBlock height later) :
    Outcome e height R (before ++ (tr ++ later)) left' tried := by
  cases h with
  | idle hnone hnil =>
    rw [hnil, List.perm_nil] at hleft
    exact .idle hnone hleft
  | dropped hzero hnil =>
    rw [hnil, List.perm_nil] at hleft
    exact .dropped hzero hleft
  | unserved hne hlevel hasked hkept =>
    have hasked' := List.mem_append_right before (List.mem_append_left later hasked)
    exact .unserved hne hlevel hasked' (hleft.trans hkept)
  | @redone batch failed past run last hne hsome htr hbatch hserved hrun hfailed htxids hreasons =>
    have htr' : before ++ (tr ++ later) = (before ++ past) ++ (run ++ (last ++ later)) := by
      rw [htr]
      simp only [List.append_assoc]
    refine .redone hne hsome htr' (hbatch.after before) (fun hlevel cause hx => ?_) hrun hfailed
      ((hleft.map _).trans htxids) fun r hr => hreasons r (hleft.subset hr)
    · rcases List.mem_append.mp hx with hx | hx
      · exact hbefore _ hx
      rcases List.mem_append.mp hx with hx | hx
      · exact hserved hlevel cause hx
      · exact hlater _ hx

/-- What a batch leaves is one record for each transaction that failed in it. -/
theorem Redone.txids_perm {batch : Batch} {failed : List String} {reads run drops : List Exchange}
    (h : Redone e height R batch failed reads run drops) (hnodup : left.Nodup)
    (hleft : ∀ r, r ∈ left ↔ SavedLast run r) : (left.map (·.txid)).Perm failed.dedup := by
  have hinj : ∀ r ∈ left, ∀ r' ∈ left, r.txid = r'.txid → r = r' := by
    intro r hr r' hr' htxid
    have hlast : SavedLast run r := (hleft r).mp hr
    have hlast' : SavedLast run r' := (hleft r').mp hr'
    unfold SavedLast at hlast hlast'
    rw [htxid] at hlast
    exact Option.some.inj (hlast.symm.trans hlast')
  rw [List.perm_ext_iff_of_nodup (List.Nodup.map_on hinj hnodup) (List.nodup_dedup failed)]
  intro txid
  rw [List.mem_dedup, h.mem_failed, List.mem_map]
  constructor
  · rintro ⟨r, hr, rfl⟩
    exact ⟨r, ((hleft r).mp hr).mem, rfl⟩
  · rintro ⟨s, hs, rfl⟩
    obtain ⟨r, hlast, htxid⟩ := exists_savedLast hs
    exact ⟨r, (hleft r).mpr hlast, htxid⟩

/-- **What becomes of a height that is dealt with.** -/
theorem HeightTried.outcome (hall : Distinct all) (hrecords : records ⊆ all)
    (hnodup : (records.map (·.id)).Nodup) (hR : (recordsAt height records).Perm R) (hsome : R ≠ [])
    (hsaved : readOff saved? tr ⊆ all) (h : HeightTried e height R tried tr) :
    Outcome e height R tr (recordsAt height (recordsAfter records tr)) tried := by
  have hleft : (recordsAt height (recordsAfter records tr)).Nodup :=
    (List.Nodup.of_map _ (recordsAfter_nodup hnodup)).filter _
  cases h with
  | dropped hzero =>
    refine .dropped hzero (List.filter_eq_nil_iff.mpr fun r hr hheight => ?_)
    have hne : r.height ≠ 0 := bne_iff_ne.mp (List.mem_filter.mp hr).2
    exact hne ((beq_iff_eq.mp hheight).trans hzero)
  | unserved hne hlevel => exact .unserved hne hlevel (List.mem_singleton_self _) hR
  | @redone batch failed reads run drops h =>
    rw [h.saved_eq] at hsaved
    have hmem : ∀ r, r ∈ recordsAt height (recordsAfter records (reads ++ (run ++ drops))) ↔
        SavedLast run r := by
      intro r
      rw [mem_recordsAt]
      constructor
      · rintro ⟨hr, hheight⟩
        have hold : r ∈ records → r ∈ R := fun hmem =>
          hR.subset (mem_recordsAt.mpr ⟨hmem, hheight⟩)
        exact (h.mem_of_height hall hrecords hsaved hold hheight).mp hr
      · intro hlast
        have hheight : r.height = height := (h.own hsaved r hlast.mem).2
        have hold : r ∈ records → r ∈ R := fun hmem =>
          hR.subset (mem_recordsAt.mpr ⟨hmem, hheight⟩)
        exact ⟨(h.mem_of_height hall hrecords hsaved hold hheight).mpr hlast, hheight⟩
    have hserved : R.any UnscannedRecord.isBlockLevel = true → ∀ cause,
        (⟨.chain (.block height), .error cause⟩ : Exchange) ∉ reads ++ (run ++ drops) :=
      fun hlevel cause hx => h.served hlevel cause (h.mem_reads hx)
    exact .redone h.nonzero hsome rfl h.retried hserved h.admitted
      (h.admitted.ensures (runBatch_failed e batch) failed rfl) (h.txids_perm hleft hmem)
      fun r hr => (hmem r).mp hr

end

/-! ## All heights -/

/-- The exchanges that deal with the heights one after the other, and how many batches were run. -/
inductive HeightsTried (e : Engine) : Engine.HeightGroups → Nat → List Exchange → Prop
  | nil : HeightsTried e [] 0 []
  | cons {height : UInt64} {records : List UnscannedRecord} {rest : Engine.HeightGroups}
    {tried : Bool} {others : Nat} {tr tr' : List Exchange}
    (hfirst : HeightTried e height records tried tr) (hrest : HeightsTried e rest others tr') :
    HeightsTried e ((height, records) :: rest) (if tried then others + 1 else others) (tr ++ tr')

theorem retryHeights_ensures (e : Engine) : ∀ groups : Engine.HeightGroups,
    (e.retryHeights groups).Ensures fun tr r => ∀ retried, r = .ok retried →
      HeightsTried e groups retried tr
  | [] => by
    rintro retried ⟨⟩
    exact .nil
  | (height, records) :: rest => by
    unfold Engine.retryHeights
    refine Ensures.bind (retryHeight_ensures e height records) ?_ ?_
    · intro tr tried hfirst
      refine Ensures.bind (retryHeights_ensures e rest) ?_ ?_
      · rintro tr' others hrest retried ⟨⟩
        rw [List.append_nil]
        exact .cons (hfirst tried rfl) (hrest others rfl)
      · rintro tr' h - retried ⟨⟩
    · rintro tr h - retried ⟨⟩

theorem recordsAt_perm {height : UInt64} {records records' : List UnscannedRecord}
    (hnodup : (records.map (·.id)).Nodup) (hnodup' : (records'.map (·.id)).Nodup)
    (h : ∀ r : UnscannedRecord, r.height = height → (r ∈ records ↔ r ∈ records')) :
    (recordsAt height records).Perm (recordsAt height records') := by
  have hfirst : (recordsAt height records).Nodup := (List.Nodup.of_map _ hnodup).filter _
  have hsecond : (recordsAt height records').Nodup := (List.Nodup.of_map _ hnodup').filter _
  rw [List.perm_ext_iff_of_nodup hfirst hsecond]
  intro r
  rw [mem_recordsAt, mem_recordsAt]
  exact and_congr_left (h r)

namespace HeightsTried

variable {e : Engine} {groups : Engine.HeightGroups} {all records : List UnscannedRecord} {n : Nat}
  {tr : List Exchange}

theorem computed (h : HeightsTried e groups n tr) :
    ∀ r ∈ readOff saved? tr, r.id = UnscannedRecord.idOf r.height r.txid := by
  induction h with
  | nil => simp
  | cons hfirst hrest ih =>
    intro r hr
    rw [readOff_append] at hr
    rcases List.mem_append.mp hr with hr | hr
    · exact hfirst.computed r hr
    · exact ih r hr

/-- Only the blocks of the heights are asked for. -/
theorem asksNoBlock {height : UInt64} (hne : ∀ g ∈ groups, height ≠ g.1)
    (h : HeightsTried e groups n tr) : AsksNoBlock height tr := by
  induction h with
  | nil => exact fun answer => List.not_mem_nil
  | cons hfirst hrest ih =>
    rw [List.forall_mem_cons] at hne
    intro answer hx
    rcases List.mem_append.mp hx with hx | hx
    · exact hfirst.asksNoBlock hne.1 answer hx
    · exact ih hne.2 answer hx

theorem among (hgroups : ∀ g ∈ groups, ∀ r ∈ g.2, r ∈ all ∧ r.height = g.1)
    (hsaved : readOff saved? tr ⊆ all) (h : HeightsTried e groups n tr) : OperatesAmong all tr := by
  induction h with
  | nil => exact fun op answer hx => absurd hx List.not_mem_nil
  | cons hfirst hrest ih =>
    rw [List.forall_mem_cons] at hgroups
    rw [readOff_append, List.append_subset] at hsaved
    exact operatesAmong_append.mpr
      ⟨hfirst.among hgroups.1 hsaved.1, ih hgroups.2 hsaved.2⟩

/-- Records of other heights stay as they are. -/
theorem frame (hall : Distinct all) (hgroups : ∀ g ∈ groups, ∀ r ∈ g.2, r ∈ all ∧ r.height = g.1)
    (hrecords : records ⊆ all) (hsaved : readOff saved? tr ⊆ all) (h : HeightsTried e groups n tr)
    {r : UnscannedRecord} (hne : ∀ g ∈ groups, r.height ≠ g.1) :
    r ∈ recordsAfter records tr ↔ r ∈ records := by
  induction h generalizing records with
  | nil => exact Iff.rfl
  | cons hfirst hrest ih =>
    rw [List.forall_mem_cons] at hgroups hne
    rw [readOff_append, List.append_subset] at hsaved
    have hsubset := recordsAfter_subset (hfirst.among hgroups.1 hsaved.1) hrecords
    rw [recordsAfter_append, ih hgroups.2 hsubset hsaved.2 hne.2]
    exact hfirst.frame hall hrecords hsaved.1 hne.1

/-- **What becomes of the heights that are dealt with.**  The heights of which a batch was run are
counted. -/
theorem outcome (hall : Distinct all) (hsorted : groups.Pairwise fun g g' => g.1 < g'.1)
    (hgroups : ∀ g ∈ groups, ∀ r ∈ g.2, r ∈ all ∧ r.height = g.1) (hsome : ∀ g ∈ groups, g.2 ≠ [])
    (hrecords : records ⊆ all) (hnodup : (records.map (·.id)).Nodup)
    (hat : ∀ g ∈ groups, (recordsAt g.1 records).Perm g.2) (hsaved : readOff saved? tr ⊆ all)
    (h : HeightsTried e groups n tr) :
    ∃ tried : List UInt64, tried.Sublist (groups.map (·.1)) ∧ tried.length = n ∧
      ∀ g ∈ groups, Outcome e g.1 g.2 tr (recordsAt g.1 (recordsAfter records tr))
        (decide (g.1 ∈ tried)) := by
  induction h generalizing records with
  | nil => exact ⟨[], .slnil, rfl, by simp⟩
  | @cons height R rest tried others tr tr' hfirst hrest ih =>
    obtain ⟨hhead, htail⟩ := List.pairwise_cons.mp hsorted
    rw [List.forall_mem_cons] at hgroups hsome hat
    rw [readOff_append, List.append_subset] at hsaved
    have hsubset : recordsAfter records tr ⊆ all :=
      recordsAfter_subset (hfirst.among hgroups.1 hsaved.1) hrecords
    have hnodup' : ((recordsAfter records tr).map (·.id)).Nodup := recordsAfter_nodup hnodup
    have habove : ∀ g ∈ rest, height ≠ g.1 := fun g hg => UInt64.ne_of_lt (hhead g hg)
    -- the first height leaves the records of the others as they are
    have hat' : ∀ g ∈ rest, (recordsAt g.1 (recordsAfter records tr)).Perm g.2 := by
      intro g hg
      refine (recordsAt_perm hnodup' hnodup fun r hheight => ?_).trans (hat.2 g hg)
      exact hfirst.frame hall hrecords hsaved.1 (hheight ▸ (habove g hg).symm)
    obtain ⟨later, hsub, hlength, houtcome⟩ :=
      ih htail hgroups.2 hsome.2 hsubset hnodup' hat' hsaved.2
    have hnotin : height ∉ later := by
      intro hmem
      obtain ⟨g, hg, heq⟩ := List.mem_map.mp (hsub.subset hmem)
      exact habove g hg heq.symm
    refine ⟨if tried then height :: later else later, ?_, ?_, ?_⟩
    · cases tried
      · exact hsub.cons _
      · exact hsub.cons_cons _
    · cases tried
      · exact hlength
      · exact congrArg (· + 1) hlength
    rw [List.forall_mem_cons]
    constructor
    · have hdecide : decide (height ∈ if tried then height :: later else later) = tried := by
        cases tried <;> simp [hnotin]
      have hkept : (recordsAt height (recordsAfter records (tr ++ tr'))).Perm
          (recordsAt height (recordsAfter records tr)) := by
        refine recordsAt_perm (recordsAfter_nodup hnodup) hnodup' fun r hheight => ?_
        rw [recordsAfter_append]
        exact hrest.frame hall hgroups.2 hsubset hsaved.2 (hheight ▸ habove)
      have hout := hfirst.outcome hall hrecords hnodup hat.1 hsome.1 hsaved.1
      rw [hdecide]
      exact hout.within hkept (fun answer => List.not_mem_nil) (hrest.asksNoBlock habove)
    · intro g hg
      have hdecide : decide (g.1 ∈ if tried then height :: later else later) =
          decide (g.1 ∈ later) := by
        cases tried <;> simp [(habove g hg).symm]
      have hout := (houtcome g hg).within (.refl _) (hfirst.asksNoBlock (habove g hg).symm)
        (fun answer => List.not_mem_nil)
      rw [List.append_nil, ← recordsAfter_append] at hout
      rwa [hdecide]

/-- What becomes of every height, whether or not it has records. -/
theorem outcome_of_grouped {listed : List UnscannedRecord} (hall : Distinct all)
    (hrecords : records ⊆ all) (hnodup : (records.map (·.id)).Nodup)
    (hgrouped : Engine.Grouped listed groups) (hlisted : listed.Perm records)
    (hsaved : readOff saved? tr ⊆ all) (h : HeightsTried e groups n tr) :
    ∃ tried : List UInt64, tried.Nodup ∧ tried.length = n ∧ ∀ height,
      Outcome e height (recordsAt height listed) tr
        (recordsAt height (recordsAfter records tr)) (decide (height ∈ tried)) := by
  have hgroups : ∀ g ∈ groups, ∀ r ∈ g.2, r ∈ all ∧ r.height = g.1 :=
    hgrouped.among fun r hr => hrecords (hlisted.subset hr)
  have hat : ∀ g ∈ groups, (recordsAt g.1 records).Perm g.2 := by
    intro g hg
    rw [hgrouped.records_eq g hg]
    exact (hlisted.filter _).symm
  obtain ⟨tried, hsub, hlength, houtcome⟩ :=
    h.outcome hall hgrouped.sorted hgroups hgrouped.occupied hrecords hnodup hat hsaved
  have hheights : (groups.map (·.1)).Nodup :=
    List.pairwise_map.mpr (hgrouped.sorted.imp fun hlt => UInt64.ne_of_lt hlt)
  refine ⟨tried, hheights.sublist hsub, hlength, fun height => ?_⟩
  by_cases hsome : ∃ g ∈ groups, g.1 = height
  · obtain ⟨g, hg, rfl⟩ := hsome
    have hout := houtcome g hg
    rwa [hgrouped.records_eq g hg] at hout
  · -- no record of this height was listed, and none was saved
    have hapart : ∀ g ∈ groups, height ≠ g.1 := fun g hg heq => hsome ⟨g, hg, heq.symm⟩
    have hnone : recordsAt height listed = [] := by
      refine List.filter_eq_nil_iff.mpr fun r hr hheight => ?_
      obtain ⟨g, hg, heq⟩ := hgrouped.covers r hr
      exact hsome ⟨g, hg, heq.trans (beq_iff_eq.mp hheight)⟩
    have hleft : recordsAt height (recordsAfter records tr) = [] := by
      refine List.filter_eq_nil_iff.mpr fun r hr hheight => ?_
      obtain rfl : r.height = height := beq_iff_eq.mp hheight
      have hold : r ∈ records := (h.frame hall hgroups hrecords hsaved hapart).mp hr
      exact List.filter_eq_nil_iff.mp hnone r (hlisted.symm.subset hold) hheight
    have hnotin : height ∉ tried := by
      intro hmem
      obtain ⟨g, hg, heq⟩ := List.mem_map.mp (hsub.subset hmem)
      exact hsome ⟨g, hg, heq⟩
    rw [decide_eq_false hnotin]
    exact .idle hnone hleft

end HeightsTried

/-! ## The purge -/

/-- A ledger after the purge that a retry pass begins with. -/
def Ledger.purged (l : Ledger) : Ledger :=
  (l.perform (.deleteUnscannedByReason unknownTransactionLead)).2

theorem lead_no_nul : '\x00' ∉ unknownTransactionLead.toList := by decide

/-- A purge deletes the records of unknown transactions, from a ledger of either kind. -/
theorem purge_records (l : Ledger) :
    l.purged.records =
      l.records.filter fun r => !beginsWith unknownTransactionLead r.reason := by
  cases l with
  | memory l => exact map_filter_of_eq fun _ _ => rfl
  | rows l =>
    refine map_filter_of_eq fun row _ => ?_
    rw [reasonBegins_eq lead_no_nul]
    rfl

/-! ## The whole pass -/

/-- The exchanges that a pass begins with: the purge, and the listing of what it left. -/
def retryOpening (purged : Nat) (listed : List UnscannedRecord) : List Exchange :=
  [⟨.ledger (.deleteUnscannedByReason unknownTransactionLead), .ok purged⟩,
    ⟨.ledger .listUnscanned, .ok listed⟩]

theorem retry_ensures (e : Engine) :
    e.retry.Ensures fun tr r => ∀ retried purged, r = .ok (retried, purged) → ∃ listed later,
      tr = retryOpening purged listed ++ later ∧
      HeightsTried e (Engine.groupByHeight listed) retried later := by
  unfold Engine.retry
  refine Ensures.bind (store_ensures _) ?_ ?_
  · rintro _ purged (⟨answer, rfl, ⟨⟩⟩ | ⟨cause, -, ⟨⟩⟩)
    refine Ensures.bind (store_ensures _) ?_ ?_
    · rintro _ listed (⟨answer, rfl, ⟨⟩⟩ | ⟨cause, -, ⟨⟩⟩)
      refine Ensures.bind (retryHeights_ensures e _) ?_ ?_
      · rintro later retried htried _ _ ⟨⟩
        rw [List.append_nil]
        exact ⟨listed, later, rfl, htried retried rfl⟩
      · rintro later h - _ _ ⟨⟩
    · rintro tr h - _ _ ⟨⟩
  · rintro tr h - _ _ ⟨⟩

theorem Outcome.zero {e : Engine} {records left : List UnscannedRecord} {tr : List Exchange}
    {tried : Bool} (h : Outcome e 0 records tr left tried) : left = [] := by
  cases h with
  | idle hnone hleft => exact hleft
  | dropped hzero hleft => exact hleft
  | unserved hne hlevel hasked hleft => exact absurd rfl hne
  | redone hne => exact absurd rfl hne

section

variable {l : Ledger} {all : List UnscannedRecord} (purged : Nat) (listed : List UnscannedRecord)

theorem retryOpening_among : OperatesAmong all (retryOpening purged listed) := by
  have hpurge : (LedgerOp.deleteUnscannedByReason unknownTransactionLead).Among all := lead_no_nul
  have hlist : LedgerOp.listUnscanned.Among all := trivial
  intro op answer hx
  unfold retryOpening at hx
  rw [List.mem_cons, List.mem_singleton] at hx
  rcases hx with hx | hx
  · obtain rfl := Query.ledger.inj (congrArg Sigma.fst hx)
    exact hpurge
  · obtain rfl := Query.ledger.inj (congrArg Sigma.fst hx)
    exact hlist

theorem retryOpening_asksNoBlock (height : UInt64) :
    AsksNoBlock height (retryOpening purged listed) := by
  intro answer hx
  simp [retryOpening] at hx

variable {purged} {listed}

/-- What the ledger answers at the beginning of a pass: how many records it purged, and all
others. -/
theorem retryOpening_answers (h : Answered Ledger.perform l (retryOpening purged listed)) :
    purged = (l.records.filter fun r => beginsWith unknownTransactionLead r.reason).length ∧
      listed.Perm (l.records.filter fun r => !beginsWith unknownTransactionLead r.reason) := by
  obtain ⟨hpurged, hlisted, -⟩ := h
  rw [perform_purge lead_no_nul] at hpurged
  obtain ⟨listed', hlist, hperm⟩ := perform_listUnscanned l.purged
  have hlisted := Except.ok.inj (hlisted.trans (congrArg Prod.fst hlist))
  rw [← purge_records, hlisted]
  exact ⟨Except.ok.inj hpurged, hperm⟩

end

/-- **The exact effect of a retry pass.**  Over a ledger of either kind whose records carry their
computed identifiers, and whatever the chain source and the sinks answer, a pass that has a result
answers how many records it purged and of how many heights it ran a batch.  It leaves the cursor and
the cached blocks alone, no record at height zero, and of every height what `Outcome` says.  SHA-256
is taken to keep apart the texts that occur. -/
theorem retry_effect {τ : Type} (e : Engine) (outside : Handler τ) {l : Ledger} {t : τ}
    {retried purged : Nat} {s : Ledger × τ} {tr : List Exchange}
    (hrun : e.retry.run (amid Ledger.perform outside) (l, t) = ⟨.ok (retried, purged), s, tr⟩)
    (hkept : l.WellKept)
    (hapart : Set.InjOn Sha256.hexOfText
      {text | ∃ r ∈ l.records ++ readOff saved? tr, text = UnscannedRecord.text r.height r.txid}) :
    purged = (l.records.filter fun r => beginsWith unknownTransactionLead r.reason).length ∧
      s.1.WellKept ∧ l.SamePosition s.1 ∧ (∀ r ∈ s.1.records, r.height ≠ 0) ∧
      ∃ (listed : List UnscannedRecord) (tried : List UInt64),
        listed.Perm (l.records.filter fun r => !beginsWith unknownTransactionLead r.reason) ∧
        tried.Nodup ∧ tried.length = retried ∧
        ∀ height, Outcome e height (recordsAt height listed) tr (recordsAt height s.1.records)
          (decide (height ∈ tried)) := by
  have hensured := (retry_ensures e).run (amid Ledger.perform outside) (l, t)
  have hdrain := (Engine.retry_quiet e).orderly.only.run (amid Ledger.perform outside) (l, t)
  have hreplay : (e.retry.run (amid Ledger.perform outside) (l, t)).state.1 =
      replay Ledger.perform l (e.retry.run (amid Ledger.perform outside) (l, t)).trace :=
    amid_replay e.retry l t
  have htrace := congrArg Run.trace hrun
  rw [hrun] at hensured hdrain hreplay
  obtain ⟨listed, later, rfl, htried⟩ := hensured retried purged rfl
  -- all records that occur
  set all := l.records ++ readOff saved? later
  have hl : l.records ⊆ all := List.subset_append_left _ _
  have hsaved : readOff saved? later ⊆ all := List.subset_append_right _ _
  have hall : Distinct all := by
    refine ⟨fun r hr => ?_, hapart⟩
    rcases List.mem_append.mp hr with hr | hr
    · exact hkept.computed r hr
    · exact htried.computed r hr
  obtain ⟨hpurged, hlisted⟩ := retryOpening_answers
    (answered_append.mp (htrace ▸ answered_run e.retry l t)).1
  have hgrouped := Engine.groupByHeight_grouped listed
  -- the records that the purge leaves
  set rest := l.records.filter fun r => !beginsWith unknownTransactionLead r.reason
  have hrest : rest ⊆ all := fun r hr => hl (List.mem_filter.mp hr).1
  have hnodup : (rest.map (·.id)).Nodup := hkept.nodup.sublist (List.filter_sublist.map _)
  have hlater : OperatesAmong all later :=
    htried.among (hgrouped.among fun r hr => hrest (hlisted.subset hr)) hsaved
  have hops : OperatesAmong all (retryOpening purged listed ++ later) := by
    intro op answer hx
    rcases List.mem_append.mp hx with hx | hx
    · exact retryOpening_among purged listed op answer hx
    · exact hlater op answer hx
  have hleft : s.1.records = recordsAfter rest later := by
    rw [hreplay]
    exact replay_records hall hkept.keyed hl hops
  have hleft_subset : s.1.records ⊆ all := hleft ▸ recordsAfter_subset hlater hrest
  obtain ⟨tried, htried_nodup, hlength, houtcome⟩ :=
    htried.outcome_of_grouped hall hrest hnodup hgrouped hlisted hsaved
  refine ⟨hpurged, ⟨?_, ?_, ?_⟩, ?_, ?_, listed, tried, hlisted, htried_nodup, hlength, ?_⟩
  · rw [hreplay]
    exact replay_keyed hkept.keyed _
  · rw [hleft]
    exact recordsAfter_nodup hnodup
  · exact fun r hr => hall.computed r (hleft_subset hr)
  · rw [hreplay]
    exact replay_isDrain hdrain l
  · intro r hr hzero
    have hmem : r ∈ recordsAt 0 (recordsAfter rest later) := mem_recordsAt.mpr ⟨hleft ▸ hr, hzero⟩
    rw [(houtcome 0).zero] at hmem
    cases hmem
  · intro height
    rw [hleft]
    have hout := (houtcome height).within (.refl _) (retryOpening_asksNoBlock purged listed height)
      fun answer => List.not_mem_nil
    rwa [List.append_nil] at hout

open Rehearsal

/-- A chain source that serves a block and one of its two transactions. -/
def patchyWorld : World where
  chain := { ChainTables.empty with
    blocks := [(4, .ok ⟨⟨"h4", "h3", 4, 0⟩, ["t4", "u4"]⟩)]
    transactions := [("t4", .found ⟨"t4", 4, "", []⟩), ("u4", .failed (.unavailable "down"))] }
  ledger := .memory .empty
  faults := []
  sinks := []
  channel := none
  hooks := []
  task := .idle
  attached := false

/-- A ledger in which that block and an unknown transaction are recorded. -/
def patchyLedger : Ledger := Ledger.saving
  [.of 4 "" "no block", .of 7 "x7" (ChainError.transactionNotFound "x7").message] (.memory .empty)

/-- The pass purges the unknown transaction, and puts the one that fails in place of the block. -/
theorem patchy_pass :
    let r := bareEngine.retry.run (amid Ledger.perform World.handle) (patchyLedger, patchyWorld)
    r.state.1.records.map (fun r => (r.height, r.txid, r.reason)) =
        [(4, "u4", "Chain source unavailable: down")] ∧
      ∃ (listed : List UnscannedRecord) (tried : List UInt64), tried.length = 1 ∧
        ∀ height, Outcome bareEngine height (recordsAt height listed) r.trace
          (recordsAt height r.state.1.records) (decide (height ∈ tried)) := by
  intro r
  refine ⟨by decide +kernel, ?_⟩
  have hrun : r = ⟨.ok (1, 1), r.state, r.trace⟩ := by
    have hresult : r.result = .ok (1, 1) := by decide +kernel
    rw [← hresult]
  have hkept : patchyLedger.WellKept := empty_wellKept.saving (by simp [UnscannedRecord.of])
  obtain ⟨-, -, -, -, listed, tried, -, -, hlength, houtcome⟩ :=
    retry_effect bareEngine World.handle hrun hkept (injOn_hexOfText (by decide +kernel))
  exact ⟨listed, tried, hlength, houtcome⟩

end WalletScan
