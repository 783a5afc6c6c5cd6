import Mathlib.Data.List.Find
import WalletScan.Proofs.LedgerRecords

/-!
# What a retry does to the records of a height

A height is tried again with one batch.  The batch saves its failures over the old records, and the
old records whose transaction did not fail again are deleted afterwards.

* `retryHeight_ensures` — the three ways in which the records of a height can be dealt with.
* `Redone.mem_of_height` — after a batch, exactly the records that it saved last are left.
* `HeightTried.frame` — records of other heights stay as they are.
-/

set_option autoImplicit false

namespace WalletScan

open Script
open Exchange (saved?)

/-! ## One height -/

/-- The batch that the records of a height are tried again with.  If one of them asks for the whole
block, then the exchanges before it end with the block that the chain source served. -/
def RetriedWith (height : UInt64) (records : List UnscannedRecord) (batch : Batch)
    (past : List Exchange) : Prop :=
  (records.any UnscannedRecord.isBlockLevel = true ∧
    ∃ earlier b, past = earlier ++ [⟨.chain (.block height), .ok b⟩] ∧
      batch = .block height b.hash b.transactions) ∨
  (records.any UnscannedRecord.isBlockLevel = false ∧
    ∃ hash, batch = .block height hash (records.map (·.txid)))

/-- The batch is that of the block that was served, or that of the records themselves. -/
theorem RetriedWith.of_reads {height : UInt64} {records : List UnscannedRecord} {batch : Batch}
    {reads : List Exchange} {P : Prop}
    (h : (records.any UnscannedRecord.isBlockLevel = true ∧
        ∃ b, reads = [⟨.chain (.block height), .ok b⟩] ∧
          batch = .block height b.hash b.transactions) ∨
      (records.any UnscannedRecord.isBlockLevel = false ∧ P ∧
        ∃ hash, batch = .block height hash (records.map (·.txid)))) :
    RetriedWith height records batch reads := by
  rcases h with ⟨hlevel, b, rfl, rfl⟩ | ⟨hlevel, -, hash, rfl⟩
  · exact .inl ⟨hlevel, [], b, rfl, rfl⟩
  · exact .inr ⟨hlevel, hash, rfl⟩

/-- A batch of the records of a height was run, and those whose transaction did not fail in it were
deleted. -/
structure Redone (e : Engine) (height : UInt64) (records : List UnscannedRecord) (batch : Batch)
    (failed : List String) (reads run drops : List Exchange) : Prop where
  nonzero : height ≠ 0
  retried : RetriedWith height records batch reads
  served : records.any UnscannedRecord.isBlockLevel = true → ∀ cause,
    (⟨.chain (.block height), .error cause⟩ : Exchange) ∉ reads
  reads_kinds : ∀ x ∈ reads, x.IsBlockRead ∧ x.Within (· = height)
  admitted : (e.runBatch batch).Admits run (.ok failed)
  drops_eq : drops.map Sigma.fst =
    (records.filter fun r => !failed.contains r.txid).map fun r =>
      .ledger (.deleteUnscannedRecord height r.txid)

/-- The exchanges that deal with the records of a height, and whether a batch was run. -/
inductive HeightTried (e : Engine) (height : UInt64) (records : List UnscannedRecord) :
    Bool → List Exchange → Prop
  /-- Records of the mempool are dropped. -/
  | dropped {deleted : Nat} (hzero : height = 0) :
    HeightTried e height records false [⟨.ledger (.deleteUnscanned 0), .ok deleted⟩]
  /-- The block was asked for and not served. -/
  | unserved {cause : ChainError} (hne : height ≠ 0)
    (hlevel : records.any UnscannedRecord.isBlockLevel = true) :
    HeightTried e height records false [⟨.chain (.block height), .error cause⟩]
  | redone {batch : Batch} {failed : List String} {reads run drops : List Exchange}
    (h : Redone e height records batch failed reads run drops) :
    HeightTried e height records true (reads ++ (run ++ drops))

theorem dropSettled_ensures (height : UInt64) (failed : List String) :
    ∀ records, (Engine.dropSettled height failed records).Ensures fun tr r => r = .ok () →
      tr.map Sigma.fst = (records.filter fun r => !failed.contains r.txid).map fun r =>
        .ledger (.deleteUnscannedRecord height r.txid)
  | [] => fun _ => rfl
  | r :: rest => by
    unfold Engine.dropSettled
    split
    · rename_i hfailed
      have hskip : ((r :: rest).filter fun r => !failed.contains r.txid) =
          rest.filter fun r => !failed.contains r.txid :=
        List.filter_cons_of_neg (by simpa using hfailed)
      rw [hskip]
      exact dropSettled_ensures height failed rest
    · rename_i hsettled
      have hdrop : ((r :: rest).filter fun r => !failed.contains r.txid) =
          r :: rest.filter fun r => !failed.contains r.txid :=
        List.filter_cons_of_pos (by simpa using hsettled)
      rw [hdrop]
      refine Ensures.bind (store_ensures _) ?_ ?_
      · rintro _ n (⟨answer, rfl, -⟩ | ⟨cause, -, ⟨⟩⟩)
        refine (dropSettled_ensures height failed rest).mono fun tr result h hok => ?_
        exact congrArg (_ :: ·) (h hok)
      · rintro tr h - ⟨⟩

theorem retryHeight_ensures (e : Engine) (height : UInt64) (records : List UnscannedRecord) :
    (e.retryHeight height records).Ensures fun tr r => ∀ tried, r = .ok tried →
      HeightTried e height records tried tr := by
  unfold Engine.retryHeight
  split
  · rename_i hzero
    refine Ensures.bind (store_ensures _) ?_ ?_
    · rintro _ n (⟨answer, rfl, -⟩ | ⟨cause, -, ⟨⟩⟩)
      rintro tried ⟨⟩
      exact .dropped hzero
    · rintro tr h - tried ⟨⟩
  · rename_i hne
    refine Ensures.bind (Engine.retryBatch_ensures height records) ?_ ?_
    · rintro reads (_ | batch) hbatch
      · obtain ⟨hlevel, cause, rfl⟩ := hbatch
        rintro tried ⟨⟩
        exact .unserved hne hlevel
      · -- the block was served, or the transactions of the records are tried by themselves
        have hwith : RetriedWith height records batch reads := .of_reads hbatch
        have hserved : records.any UnscannedRecord.isBlockLevel = true → ∀ cause,
            (⟨.chain (.block height), .error cause⟩ : Exchange) ∉ reads := by
          rcases hbatch with ⟨-, b, rfl, -⟩ | ⟨hlevel, -⟩
          · simp
          · simp [hlevel]
        have hkinds : ∀ x ∈ reads, x.IsBlockRead ∧ x.Within (· = height) := by
          rcases hbatch with ⟨-, b, rfl, -⟩ | ⟨-, hkinds, -⟩
          · simp [Exchange.IsBlockRead, Exchange.Within, hne]
          · exact hkinds
        refine Ensures.bind (ensures_admits (e.runBatch batch)) ?_ ?_
        · intro run failed hrun
          refine Ensures.bind (dropSettled_ensures height failed records) ?_ ?_
          · rintro drops ⟨⟩ hdrops tried ⟨⟩
            rw [List.append_nil]
            exact .redone ⟨hne, hwith, hserved, hkinds, hrun, hdrops rfl⟩
          · rintro drops h - tried ⟨⟩
        · rintro run h - tried ⟨⟩
    · rintro tr h - tried ⟨⟩

/-! ## What the exchanges of one height do to the records -/

/-- A record is the last one of its transaction that some exchanges saved. -/
def SavedLast (tr : List Exchange) (r : UnscannedRecord) : Prop :=
  (readOff saved? tr).reverse.find? (fun s => s.txid == r.txid) = some r

theorem exists_savedLast {tr : List Exchange} {s : UnscannedRecord} (hs : s ∈ readOff saved? tr) :
    ∃ r, SavedLast tr r ∧ r.txid = s.txid := by
  unfold SavedLast
  cases hfound : (readOff saved? tr).reverse.find? fun s' => s'.txid == s.txid with
  | none => simpa using List.find?_eq_none.mp hfound s (List.mem_reverse.mpr hs)
  | some r =>
    have htxid : r.txid = s.txid := by simpa using List.find?_some hfound
    exact ⟨r, by rw [htxid, hfound], htxid⟩

theorem SavedLast.mem {tr : List Exchange} {r : UnscannedRecord} (h : SavedLast tr r) :
    r ∈ readOff saved? tr := List.mem_reverse.mp (List.mem_of_find?_eq_some h)

theorem Exchange.IsBlockRead.onRecords_eq {x : Exchange} (h : x.IsBlockRead)
    (records : List UnscannedRecord) : x.onRecords records = records := by
  obtain ⟨q, a⟩ := x
  rcases q with _ | op | _ | _ | _ | _
  case ledger => cases op <;> first | rfl | exact h.elim
  all_goals rfl

theorem Exchange.IsBlockRead.saved?_eq_none {x : Exchange} (h : x.IsBlockRead) :
    x.saved? = none := by
  obtain ⟨q, a⟩ := x
  rcases q with _ | op | _ | _ | _ | _
  case ledger => cases op <;> first | rfl | exact h.elim
  all_goals rfl

theorem recordsAfter_reads {reads : List Exchange} (h : ∀ x ∈ reads, x.IsBlockRead)
    (records : List UnscannedRecord) : recordsAfter records reads = records := by
  induction reads with
  | nil => rfl
  | cons x rest ih =>
    rw [List.forall_mem_cons] at h
    rw [recordsAfter_cons, h.1.onRecords_eq, ih h.2]

/-- An exchange of a batch saves one record or touches none. -/
theorem onRecords_of_inBatch {height : UInt64} {x : Exchange} (h : x.InBatch height)
    (hok : ¬ x.LedgerFailed) (records : List UnscannedRecord) :
    (x.saved? = none ∧ x.onRecords records = records) ∨
      ∃ s, x.saved? = some s ∧ x.onRecords records = s :: records.filter fun r => r.id != s.id := by
  obtain ⟨q, a⟩ := x
  rcases q with _ | op | _ | _ | _ | _
  case ledger =>
    cases op
    case saveUnscanned s =>
      rcases a with cause | ⟨⟩
      · exact absurd trivial hok
      · exact .inr ⟨s, rfl, rfl⟩
    all_goals
      simp [Exchange.InBatch, Exchange.IsLookup, Exchange.IsDelivery, Exchange.IsSaveAt] at h
  all_goals exact .inl ⟨rfl, rfl⟩

/-- After a batch, the record under an identifier is the last one saved, or else the one from
before. -/
theorem mem_recordsAfter_batch {height : UInt64} {tr : List Exchange}
    (hkinds : ∀ x ∈ tr, x.InBatch height) (hok : ∀ x ∈ tr, ¬ x.LedgerFailed)
    (records : List UnscannedRecord) (r : UnscannedRecord) :
    r ∈ recordsAfter records tr ↔
      (readOff saved? tr).reverse.find? (fun s => s.id == r.id) = some r ∨
      (r ∈ records ∧ ∀ s ∈ readOff saved? tr, s.id ≠ r.id) := by
  induction tr generalizing records with
  | nil => simp
  | cons x rest ih =>
    rw [List.forall_mem_cons] at hkinds hok
    rw [recordsAfter_cons, ih hkinds.2 hok.2]
    rcases onRecords_of_inBatch hkinds.1 hok.1 records with ⟨hnone, hkept⟩ | ⟨s, hsome, hsaved⟩
    · rw [hkept, readOff_cons, hnone, Option.toList_none, List.nil_append]
    · rw [hsaved, readOff_cons, hsome, Option.toList_some, List.singleton_append,
        List.reverse_cons, List.find?_append, List.forall_mem_cons]
      cases hlater : (readOff saved? rest).reverse.find? (fun s => s.id == r.id) with
      | some s' =>
        have hid : s'.id = r.id := by simpa using List.find?_some hlater
        have hmem : s' ∈ readOff saved? rest :=
          List.mem_reverse.mp (List.mem_of_find?_eq_some hlater)
        have hnot : ¬ ∀ s ∈ readOff saved? rest, s.id ≠ r.id := fun h => h s' hmem hid
        simp [hnot]
      | none =>
        have hall : ∀ s ∈ readOff saved? rest, s.id ≠ r.id := by
          intro s' hs'
          simpa using List.find?_eq_none.mp hlater s' (List.mem_reverse.mpr hs')
        simp only [reduceCtorEq, false_or, Option.none_or, List.mem_cons, List.mem_filter,
          bne_iff_ne]
        constructor
        · rintro ⟨rfl | ⟨hold, hne⟩, -⟩
          · exact .inl (by simp)
          · exact .inr ⟨hold, Ne.symm hne, hall⟩
        · rintro (hfound | ⟨hold, hne, -⟩)
          · obtain rfl := List.mem_singleton.mp (List.mem_of_find?_eq_some hfound)
            exact ⟨.inl rfl, hall⟩
          · exact ⟨.inr ⟨hold, hne.symm⟩, hall⟩

/-- Deleting the records of some transactions at a height leaves all others. -/
theorem mem_recordsAfter_drops {height : UInt64} {drops : List Exchange}
    {gone : List UnscannedRecord}
    (h : drops.map Sigma.fst = gone.map fun r => .ledger (.deleteUnscannedRecord height r.txid))
    (records : List UnscannedRecord) (r : UnscannedRecord) :
    r ∈ recordsAfter records drops ↔
      r ∈ records ∧ (r.height = height → ∀ g ∈ gone, g.txid ≠ r.txid) := by
  induction gone generalizing drops records with
  | nil =>
    obtain rfl : drops = [] := by simpa using h
    simp
  | cons g rest ih =>
    cases drops with
    | nil => simp at h
    | cons x drops =>
      obtain ⟨hfirst, hrest⟩ := List.cons.inj h
      obtain ⟨q, a⟩ := x
      obtain rfl : q = .ledger (.deleteUnscannedRecord height g.txid) := hfirst
      rw [recordsAfter_cons, ih hrest, List.forall_mem_cons]
      have hdeleted : r ∈ records.filter
          (fun r => !(r.height == height && r.txid == g.txid)) ↔
            r ∈ records ∧ (r.height = height → g.txid ≠ r.txid) := by
        rw [List.mem_filter]
        refine and_congr_right fun _ => ?_
        simp only [Bool.not_eq_true', Bool.and_eq_false_iff, beq_eq_false_iff_ne]
        rw [← imp_iff_not_or, ne_comm]
      show r ∈ records.filter (fun r => !(r.height == height && r.txid == g.txid)) ∧ _ ↔ _
      rw [hdeleted]
      constructor
      · rintro ⟨⟨hmem, hne⟩, hothers⟩
        exact ⟨hmem, fun hheight => ⟨hne hheight, hothers hheight⟩⟩
      · rintro ⟨hmem, hne⟩
        exact ⟨⟨hmem, fun hheight => (hne hheight).1⟩, fun hheight => (hne hheight).2⟩

theorem RetriedWith.height {height : UInt64} {records : List UnscannedRecord} {batch : Batch}
    {past : List Exchange} (h : RetriedWith height records batch past) : batch.height = height := by
  rcases h with ⟨-, earlier, b, -, rfl⟩ | ⟨-, hash, rfl⟩ <;> rfl

/-- The exchanges of a batch that answered the failed transactions. -/
theorem recorded_of_admits {e : Engine} {height : UInt64} {batch : Batch} {failed : List String}
    {run : List Exchange} (hheight : batch.height = height)
    (hrun : (e.runBatch batch).Admits run (.ok failed)) : Recorded height failed run := by
  have hacc : batch.Accounted e.classifier e.sinks failed run :=
    hrun.ensures (runBatch_ensures e batch)
  exact hheight ▸ hacc.1

namespace Redone

variable {e : Engine} {height : UInt64} {all records R : List UnscannedRecord} {batch : Batch}
  {failed : List String} {reads run drops : List Exchange}

theorem recorded (h : Redone e height R batch failed reads run drops) :
    Recorded height failed run := recorded_of_admits h.retried.height h.admitted

/-- The batch saved records of its height only. -/
theorem own (h : Redone e height R batch failed reads run drops)
    (hsaved : readOff saved? run ⊆ all) :
    ∀ s ∈ readOff saved? run, s ∈ all ∧ s.height = height := by
  intro s hs
  refine ⟨hsaved hs, ?_⟩
  rw [h.recorded.own_id s hs]
  rfl

theorem mem_failed (h : Redone e height R batch failed reads run drops) {txid : String} :
    txid ∈ failed ↔ ∃ s ∈ readOff saved? run, s.txid = txid := by
  rw [← h.recorded.failed_eq, List.mem_map]

/-- What was deleted at last are records of the height. -/
theorem mem_drops (h : Redone e height R batch failed reads run drops) {x : Exchange}
    (hx : x ∈ drops) : ∃ r ∈ R, x.1 = .ledger (.deleteUnscannedRecord height r.txid) := by
  have hquery : x.1 ∈ drops.map Sigma.fst := List.mem_map_of_mem hx
  rw [h.drops_eq] at hquery
  obtain ⟨r, hr, hop⟩ := List.mem_map.mp hquery
  exact ⟨r, (List.mem_filter.mp hr).1, hop.symm⟩

/-- A block is only asked for before the batch. -/
theorem mem_reads (h : Redone e height R batch failed reads run drops) {other : UInt64}
    {answer : Except ChainError Block}
    (hx : (⟨.chain (.block other), answer⟩ : Exchange) ∈ reads ++ (run ++ drops)) :
    (⟨.chain (.block other), answer⟩ : Exchange) ∈ reads := by
  rcases List.mem_append.mp hx with hx | hx
  · exact hx
  rcases List.mem_append.mp hx with hx | hx
  · have hkind := h.recorded.kinds _ hx
    simp [Exchange.InBatch, Exchange.IsLookup, Exchange.IsDelivery, Exchange.IsSaveAt] at hkind
  · obtain ⟨r, -, hop⟩ := h.mem_drops hx
    cases hop

/-- Only the batch saves records. -/
theorem saved_eq (h : Redone e height R batch failed reads run drops) :
    readOff saved? (reads ++ (run ++ drops)) = readOff saved? run := by
  have hreads : readOff saved? reads = [] :=
    readOff_eq_nil fun x hx => (h.reads_kinds x hx).1.saved?_eq_none
  have hdrops : readOff saved? drops = [] := by
    refine readOff_eq_nil fun x hx => ?_
    obtain ⟨r, -, hop⟩ := h.mem_drops hx
    obtain ⟨q, a⟩ := x
    obtain rfl : q = .ledger (.deleteUnscannedRecord height r.txid) := hop
    rfl
  rw [readOff_append, readOff_append, hreads, hdrops, List.nil_append, List.append_nil]

/-- A record is left if the batch saved it or it was there before, unless it was deleted at last. -/
theorem mem_recordsAfter (h : Redone e height R batch failed reads run drops)
    (records : List UnscannedRecord) (r : UnscannedRecord) :
    r ∈ recordsAfter records (reads ++ (run ++ drops)) ↔
      ((readOff saved? run).reverse.find? (fun s => s.id == r.id) = some r ∨
        (r ∈ records ∧ ∀ s ∈ readOff saved? run, s.id ≠ r.id)) ∧
      (r.height = height → ∀ g ∈ R, g.txid ∉ failed → g.txid ≠ r.txid) := by
  rw [recordsAfter_append, recordsAfter_append, mem_recordsAfter_drops h.drops_eq,
    mem_recordsAfter_batch h.recorded.kinds h.recorded.saves,
    recordsAfter_reads fun x hx => (h.reads_kinds x hx).1]
  simp only [List.mem_filter, Bool.not_eq_true', List.contains_eq_mem, decide_eq_false_iff_not,
    and_imp]

/-- Among the records of one height, an identifier stands for a transaction. -/
theorem savedLast_iff (hall : Distinct all) (h : Redone e height R batch failed reads run drops)
    (hsaved : readOff saved? run ⊆ all) (r : UnscannedRecord) :
    (readOff saved? run).reverse.find? (fun s => s.id == r.id) = some r ↔ SavedLast run r := by
  have hsame : r ∈ readOff saved? run → (readOff saved? run).reverse.find? (fun s => s.id == r.id) =
      (readOff saved? run).reverse.find? fun s => s.txid == r.txid := by
    intro hr
    refine List.find?_congr fun s hs => ?_
    obtain ⟨hsall, hsheight⟩ := h.own hsaved s (List.mem_reverse.mp hs)
    obtain ⟨hrall, hrheight⟩ := h.own hsaved r hr
    rw [Bool.eq_iff_iff, beq_iff_eq, beq_iff_eq, hall.id_eq_iff hsall hrall]
    exact and_iff_right (hsheight.trans hrheight.symm)
  unfold SavedLast
  constructor
  · intro hfound
    rwa [← hsame (List.mem_reverse.mp (List.mem_of_find?_eq_some hfound))]
  · intro hfound
    rwa [hsame (List.mem_reverse.mp (List.mem_of_find?_eq_some hfound))]

/-- Records of other heights stay as they are. -/
theorem frame (hall : Distinct all) (h : Redone e height R batch failed reads run drops)
    (hrecords : records ⊆ all) (hsaved : readOff saved? run ⊆ all) {r : UnscannedRecord}
    (hne : r.height ≠ height) :
    r ∈ recordsAfter records (reads ++ (run ++ drops)) ↔ r ∈ records := by
  rw [h.mem_recordsAfter, h.savedLast_iff hall hsaved]
  constructor
  · rintro ⟨hlast | ⟨hmem, -⟩, -⟩
    · exact absurd (h.own hsaved r hlast.mem).2 hne
    · exact hmem
  · intro hmem
    refine ⟨.inr ⟨hmem, fun s hs hid => ?_⟩, fun hheight => absurd hheight hne⟩
    obtain ⟨hsall, hsheight⟩ := h.own hsaved s hs
    have hheight := ((hall.id_eq_iff hsall (hrecords hmem)).mp hid).1
    exact hne (hheight.symm.trans hsheight)

/-- At the height itself, what the batch saved takes the place of what was there before. -/
theorem mem_of_height (hall : Distinct all) (h : Redone e height R batch failed reads run drops)
    (hrecords : records ⊆ all) (hsaved : readOff saved? run ⊆ all) {r : UnscannedRecord}
    (hR : r ∈ records → r ∈ R) (hheight : r.height = height) :
    r ∈ recordsAfter records (reads ++ (run ++ drops)) ↔ SavedLast run r := by
  rw [h.mem_recordsAfter, h.savedLast_iff hall hsaved]
  constructor
  · rintro ⟨hlast | ⟨hmem, hnew⟩, hkept⟩
    · exact hlast
    · -- an old record whose transaction did not fail again was deleted
      have hsettled : r.txid ∉ failed := by
        intro hfails
        obtain ⟨s, hs, htxid⟩ := h.mem_failed.mp hfails
        obtain ⟨hsall, hsheight⟩ := h.own hsaved s hs
        refine hnew s hs ((hall.id_eq_iff hsall (hrecords hmem)).mpr ⟨?_, htxid⟩)
        exact hsheight.trans hheight.symm
      exact absurd rfl (hkept hheight r (hR hmem) hsettled)
  · intro hlast
    refine ⟨.inl hlast, fun _ g _ hsettled htxid => hsettled ?_⟩
    exact h.mem_failed.mpr ⟨r, hlast.mem, htxid.symm⟩

end Redone

/-- The block of a height is not asked for. -/
def AsksNoBlock (height : UInt64) (tr : List Exchange) : Prop :=
  ∀ answer, (⟨.chain (.block height), answer⟩ : Exchange) ∉ tr

namespace HeightTried

variable {e : Engine} {height : UInt64} {all records R : List UnscannedRecord} {tried : Bool}
  {tr : List Exchange}

/-- The records that are saved carry their computed identifiers. -/
theorem computed (h : HeightTried e height R tried tr) :
    ∀ r ∈ readOff saved? tr, r.id = UnscannedRecord.idOf r.height r.txid := by
  intro r hr
  cases h with
  | dropped hzero => cases hr
  | unserved hne hlevel => cases hr
  | redone h =>
    rw [h.saved_eq] at hr
    rw [h.recorded.own_id r hr]
    rfl

/-- Only the block of the height is asked for. -/
theorem asksNoBlock {other : UInt64} (hne : other ≠ height) (h : HeightTried e height R tried tr) :
    AsksNoBlock other tr := by
  intro answer hx
  cases h with
  | dropped hzero => cases List.mem_singleton.mp hx
  | unserved hnonzero hlevel =>
    cases List.mem_singleton.mp hx
    exact hne rfl
  | redone h => exact hne (h.reads_kinds _ (h.mem_reads hx)).2.2

/-- What a height is dealt with by saves and deletes records of a list if its records and the saved
ones are on it. -/
theorem among (hR : ∀ r ∈ R, r ∈ all ∧ r.height = height) (hsaved : readOff saved? tr ⊆ all)
    (h : HeightTried e height R tried tr) : OperatesAmong all tr := by
  intro op answer hx
  cases h with
  | dropped hzero =>
    cases List.mem_singleton.mp hx
    trivial
  | unserved hne hlevel => cases List.mem_singleton.mp hx
  | redone h =>
    rw [h.saved_eq] at hsaved
    rcases List.mem_append.mp hx with hx | hx
    · have hread := (h.reads_kinds _ hx).1
      cases op <;> trivial
    rcases List.mem_append.mp hx with hx | hx
    · have hkind := h.recorded.kinds _ hx
      cases op
      case saveUnscanned r =>
        rcases answer with cause | ⟨⟩
        · exact absurd trivial (h.recorded.saves _ hx)
        · exact hsaved (mem_saved.mpr hx)
      all_goals
        simp [Exchange.InBatch, Exchange.IsLookup, Exchange.IsDelivery, Exchange.IsSaveAt] at hkind
    · obtain ⟨r, hr, hop⟩ := h.mem_drops hx
      cases hop
      obtain ⟨hmem, hheight⟩ := hR r hr
      exact ⟨r, hmem, hheight, rfl⟩

/-- Records of other heights stay as they are. -/
theorem frame (hall : Distinct all) (hrecords : records ⊆ all) (hsaved : readOff saved? tr ⊆ all)
    (h : HeightTried e height R tried tr) {r : UnscannedRecord} (hne : r.height ≠ height) :
    r ∈ recordsAfter records tr ↔ r ∈ records := by
  cases h with
  | dropped hzero =>
    show r ∈ records.filter (fun r => r.height != 0) ↔ r ∈ records
    rw [List.mem_filter, bne_iff_ne, ← hzero]
    exact and_iff_left hne
  | unserved hnonzero hlevel => exact Iff.rfl
  | redone h =>
    rw [h.saved_eq] at hsaved
    exact h.frame hall hrecords hsaved hne

end HeightTried

end WalletScan
