import WalletScan.Proofs.AdvanceTermination
import WalletScan.Proofs.LedgerRefinement
import WalletScan.Proofs.DistinctEntries

/-!
# The tables and the listings of a ledger in memory

A ledger in memory keeps its records in one table and the numbers of their last saves in another.
Every operation has to keep the two in step, whatever identifiers the saved records carry: a listing
sorts by the numbers, and it is known by its records only as long as each has a number of its own.

* `MemoryLedger.Sound` — what the tables have in common; `MemoryLedger.Sound.perform` says that
  every operation keeps it.
* `MemoryLedger.Sound.eq_listed` — records that stand in the order of listings are a listing, so
  nothing depends on the order of the entries.
* `MemoryLedger.Dated` — a number tells which operation saved a record last.
* `MemoryLedger.Narrowed.removes` — what a deletion leaves listed, and what it answers.
* `memory_listings` — these for every sequence of operations on the empty ledger.
-/

set_option autoImplicit false

namespace WalletScan

/-! ## Sound tables -/

namespace MemoryLedger

/-- The tables of a ledger belong together; that none has two entries under a key they carry
themselves. -/
structure Sound (l : MemoryLedger) : Prop where
  /-- Every block is cached under its height. -/
  shelved : ∀ e ∈ l.blocks.entries, e.2.height = e.1
  /-- Every record is stored under its identifier. -/
  keyed : ∀ e ∈ l.unscanned.entries, e.1 = e.2.id
  /-- The identifiers that have a number are those that have a record. -/
  numbered : ∀ id, id ∈ l.sequence.keys ↔ id ∈ l.unscanned.keys
  numbers_nodup : l.sequence.values.Nodup
  numbers_lt : ∀ e ∈ l.sequence.entries, e.2 < l.nextSequence

/-- A ledger is left with those of its records that pass a test, and with their numbers. -/
structure Narrowed (stays : UnscannedRecord → Bool) (l l' : MemoryLedger) : Prop where
  records : l'.unscanned.entries = l.unscanned.entries.filter fun e => stays e.2
  numbers : l'.sequence.entries.Sublist l.sequence.entries
  numbered : ∀ id, id ∈ l'.sequence.keys ↔ id ∈ l'.unscanned.keys
  next : l'.nextSequence = l.nextSequence
  blocks : l'.blocks = l.blocks

variable {l l' : MemoryLedger}

theorem empty_sound : empty.Sound := by
  constructor <;> simp [empty, Index.empty, Index.values]

theorem Sound.putBlock (h : l.Sound) (b : Block) : (l.putBlock b).Sound :=
  { h with shelved := Ledger.Shelved.perform (l := .memory l) h.shelved (.putBlock b) }

theorem Sound.deleteBlocksAbove (h : l.Sound) (height : UInt64) :
    (l.deleteBlocksAbove height).2.Sound :=
  { h with
    shelved := Ledger.Shelved.perform (l := .memory l) h.shelved (.deleteBlocksAbove height) }

/-- A saved record gets a number that none had before. -/
theorem Sound.saveUnscanned (h : l.Sound) (r : UnscannedRecord) : (l.saveUnscanned r).Sound where
  shelved := h.shelved
  keyed := perform_keyed (l := .memory l) h.keyed (.saveUnscanned r)
  numbered := by
    intro id
    show id ∈ (l.sequence.insert r.id l.nextSequence).keys ↔ id ∈ (l.unscanned.insert r.id r).keys
    rw [Index.mem_keys_insert, Index.mem_keys_insert, h.numbered]
  numbers_nodup := by
    have herased : (l.sequence.erase r.id).values.Sublist l.sequence.values :=
      List.filter_sublist.map _
    refine List.nodup_cons.mpr ⟨fun hmem => ?_, h.numbers_nodup.sublist herased⟩
    obtain ⟨e, he, hnumber⟩ := List.mem_map.mp (herased.subset hmem)
    exact Nat.lt_irrefl _ (hnumber ▸ h.numbers_lt e he)
  numbers_lt := by
    intro e he
    rcases List.mem_cons.mp he with rfl | hold
    · exact Nat.lt_succ_self _
    · exact Nat.lt_succ_of_lt (h.numbers_lt e (List.mem_filter.mp hold).1)

theorem Sound.narrowed {stays : UnscannedRecord → Bool} (h : l.Sound)
    (hn : Narrowed stays l l') : l'.Sound where
  shelved := hn.blocks ▸ h.shelved
  keyed := by
    rw [hn.records]
    exact fun e he => h.keyed e (List.mem_filter.mp he).1
  numbered := hn.numbered
  numbers_nodup := h.numbers_nodup.sublist (hn.numbers.map _)
  numbers_lt := by
    rw [hn.next]
    exact fun e he => h.numbers_lt e (hn.numbers.subset he)

/-- Deleting by a test of the records drops the numbers of those that fail it. -/
theorem Sound.keepUnscanned_narrows (h : l.Sound) (test : UnscannedRecord → Bool) :
    Narrowed test l (l.keepUnscanned test).2 where
  records := rfl
  numbers := List.filter_sublist
  numbered := by
    intro id
    show id ∈ (l.sequence.keep fun id _ => (l.unscanned.keep fun _ r => test r).has id).keys ↔
      id ∈ (l.unscanned.keep fun _ r => test r).keys
    refine Iff.trans ?_ Index.has_iff_mem_keys
    constructor
    · intro hmem
      obtain ⟨e, he, rfl⟩ := List.mem_map.mp hmem
      exact (List.mem_filter.mp he).2
    · intro hhas
      have hstored : id ∈ l.unscanned.keys :=
        (List.filter_sublist.map _).subset (Index.has_iff_mem_keys.mp hhas)
      obtain ⟨e, he, rfl⟩ := List.mem_map.mp ((h.numbered id).mpr hstored)
      exact List.mem_map_of_mem (List.mem_filter.mpr ⟨he, hhas⟩)
  next := rfl
  blocks := rfl

/-- Deleting a record drops the one under its computed identifier, whatever height and transaction
that one names. -/
theorem Sound.deleteUnscannedRecord_narrows (h : l.Sound) (height : UInt64) (txid : String) :
    Narrowed (fun r => r.id != UnscannedRecord.idOf height txid) l
      (l.deleteUnscannedRecord height txid).2 where
  records := by
    refine List.filter_congr fun e he => ?_
    rw [h.keyed e he, Bool.eq_iff_iff]
    simp
  numbers := List.filter_sublist
  numbered := by
    intro id
    show id ∈ (l.sequence.erase (UnscannedRecord.idOf height txid)).keys ↔
      id ∈ (l.unscanned.erase (UnscannedRecord.idOf height txid)).keys
    rw [Index.mem_keys_erase, Index.mem_keys_erase, h.numbered]
  next := rfl
  blocks := rfl

/-- **Every operation keeps the tables together.** -/
theorem Sound.perform (h : l.Sound) (op : LedgerOp) : (l.perform op).2.Sound := by
  cases op
  case putBlock b => exact h.putBlock b
  case deleteBlocksAbove height => exact h.deleteBlocksAbove height
  case saveUnscanned r => exact h.saveUnscanned r
  case deleteUnscanned height => exact h.narrowed (h.keepUnscanned_narrows _)
  case deleteUnscannedRecord height txid =>
    exact h.narrowed (h.deleteUnscannedRecord_narrows height txid)
  case deleteUnscannedByReason lead => exact h.narrowed (h.keepUnscanned_narrows _)
  case setCursor c => exact { h with }
  all_goals exact h

/-! ## The order of listings -/

/-- A record is lower than another, or it stands at the same height and was saved before it. -/
def Precedes (l : MemoryLedger) (a b : UnscannedRecord) : Prop :=
  a.height < b.height ∨ (a.height = b.height ∧ l.savedAt a.id < l.savedAt b.id)

theorem Precedes.asymm {a b : UnscannedRecord} (h : l.Precedes a b) : ¬ l.Precedes b a := by
  unfold Precedes at *
  simp only [UInt64.lt_iff_toNat_lt, ← UInt64.toNat_inj] at *
  omega

section

variable {r r' : UnscannedRecord}

/-- Stored records have numbers. -/
theorem Sound.exists_number (h : l.Sound) (hr : r ∈ l.unscanned.values) :
    ∃ n, l.sequence.find? r.id = some n ∧ l.savedAt r.id = n := by
  obtain ⟨e, he, rfl⟩ := List.mem_map.mp hr
  have hkey : e.2.id ∈ l.sequence.keys := by
    rw [h.numbered, ← h.keyed e he]
    exact List.mem_map_of_mem he
  obtain ⟨n, hfind⟩ := Option.isSome_iff_exists.mp (Index.has_iff_mem_keys.mpr hkey)
  refine ⟨n, hfind, ?_⟩
  unfold savedAt
  rw [hfind]
  rfl

/-- A stored record is known by its number. -/
theorem Sound.eq_of_savedAt_eq (h : l.Sound) (hr : r ∈ l.unscanned.values)
    (hr' : r' ∈ l.unscanned.values) (heq : l.savedAt r.id = l.savedAt r'.id) : r = r' := by
  obtain ⟨n, hfind, hn⟩ := h.exists_number hr
  obtain ⟨n', hfind', hn'⟩ := h.exists_number hr'
  have hentry : (r.id, n) = (r'.id, n') :=
    List.inj_on_of_nodup_map h.numbers_nodup (Index.mem_entries_iff.mpr hfind)
      (Index.mem_entries_iff.mpr hfind') (hn.symm.trans (heq.trans hn'))
  obtain ⟨e, he, rfl⟩ := List.mem_map.mp hr
  obtain ⟨e', he', rfl⟩ := List.mem_map.mp hr'
  have hkeys : e.1 = e'.1 := by
    rw [h.keyed e he, h.keyed e' he']
    exact congrArg Prod.fst hentry
  rw [List.inj_on_of_nodup_map l.unscanned.nodup he he' hkeys]

theorem Sound.records_nodup (h : l.Sound) : l.unscanned.values.Nodup := by
  refine List.Nodup.map_on (fun e he e' he' heq => ?_) l.unscanned.nodup.of_map
  refine List.inj_on_of_nodup_map l.unscanned.nodup he he' ?_
  rw [h.keyed e he, h.keyed e' he', heq]

end

section

variable {records : List UnscannedRecord} {p : UnscannedRecord → Bool}

/-- Sorted, no stored record stands beside one that it cannot be told from. -/
theorem Sound.sorted_precedes (h : l.Sound) (hsub : records ⊆ l.unscanned.values)
    (hnodup : records.Nodup) : (l.sorted records).Pairwise l.Precedes := by
  have hsorted := List.pairwise_mergeSort l.listedBefore_trans l.listedBefore_total records
  have hdistinct : (l.sorted records).Nodup := (List.mergeSort_perm _ _).nodup_iff.mpr hnodup
  refine (hsorted.and hdistinct).imp_of_mem ?_
  rintro a b ha hb ⟨hbefore, hne⟩
  have hnumbers : l.savedAt a.id ≠ l.savedAt b.id := fun heq =>
    hne (h.eq_of_savedAt_eq (hsub (List.mem_mergeSort.mp ha)) (hsub (List.mem_mergeSort.mp hb)) heq)
  unfold listedBefore at hbefore
  simp only [Bool.or_eq_true, Bool.and_eq_true, decide_eq_true_eq, beq_iff_eq] at hbefore
  exact hbefore.imp_right fun ⟨hheight, hle⟩ => ⟨hheight, Nat.lt_of_le_of_ne hle hnumbers⟩

theorem Sound.listUnscanned_precedes (h : l.Sound) : l.listUnscanned.Pairwise l.Precedes :=
  h.sorted_precedes (List.Subset.refl _) h.records_nodup

theorem listUnscanned_perm (l : MemoryLedger) :
    l.listUnscanned.Perm l.unscanned.values := List.mergeSort_perm _ _

/-- Records that stand in the order of listings are the listing of what they are. -/
theorem Sound.eq_listed (h : l.Sound) (hperm : records.Perm l.unscanned.values)
    (hordered : records.Pairwise l.Precedes) : records = l.listUnscanned :=
  List.Perm.eq_of_pairwise (fun _ _ _ _ hab hba => absurd hba hab.asymm) hordered
    h.listUnscanned_precedes (hperm.trans l.listUnscanned_perm.symm)

/-- Some of the records are listed as they stand in the whole listing, in whatever order they are
gathered. -/
theorem Sound.sorted_eq (h : l.Sound) (hperm : records.Perm (l.unscanned.values.filter p)) :
    l.sorted records = l.listUnscanned.filter p := by
  have hsub : records ⊆ l.unscanned.values := fun r hr =>
    (List.mem_filter.mp (hperm.subset hr)).1
  have hnodup : records.Nodup := hperm.nodup_iff.mpr (h.records_nodup.filter p)
  have hlisted : (l.sorted records).Perm (l.listUnscanned.filter p) :=
    (List.mergeSort_perm _ _).trans (hperm.trans (l.listUnscanned_perm.filter p).symm)
  exact List.Perm.eq_of_pairwise (fun _ _ _ _ hab hba => absurd hba hab.asymm)
    (h.sorted_precedes hsub hnodup) (h.listUnscanned_precedes.filter p) hlisted

end

/-! ## Deletions -/

/-- A deletion leaves the records listed that pass a test, in their order, and answers how many are
listed no more. -/
structure Removes (l : MemoryLedger) (stays : UnscannedRecord → Bool)
    (result : Nat × MemoryLedger) : Prop where
  left : result.2.listUnscanned = l.listUnscanned.filter stays
  count : result.1 = (l.listUnscanned.filter fun r => decide (r ∉ result.2.listUnscanned)).length

section

variable {stays : UnscannedRecord → Bool}

theorem Narrowed.records_eq (hn : Narrowed stays l l') :
    l'.unscanned.values = l.unscanned.values.filter stays := by
  unfold Index.values
  rw [hn.records]
  exact map_filter_of_eq fun _ _ => rfl

/-- The records that are left keep their numbers. -/
theorem Narrowed.find?_eq (hn : Narrowed stays l l') (h : l.Sound) {r : UnscannedRecord}
    (hr : r ∈ l'.unscanned.values) : l'.sequence.find? r.id = l.sequence.find? r.id := by
  obtain ⟨e, he, rfl⟩ := List.mem_map.mp hr
  refine Index.find?_of_sublist hn.numbers ?_
  rw [hn.numbered, ← (h.narrowed hn).keyed e he]
  exact List.mem_map_of_mem he

theorem Narrowed.left (hn : Narrowed stays l l') (h : l.Sound) :
    l'.listUnscanned = l.listUnscanned.filter stays := by
  have hperm : (l.listUnscanned.filter stays).Perm l'.unscanned.values := by
    rw [hn.records_eq]
    exact l.listUnscanned_perm.filter stays
  have hnumber : ∀ r ∈ l.listUnscanned.filter stays, l'.savedAt r.id = l.savedAt r.id := by
    intro r hr
    unfold savedAt
    rw [hn.find?_eq h (hperm.subset hr), hn.next]
  refine ((h.narrowed hn).eq_listed hperm ?_).symm
  refine (h.listUnscanned_precedes.filter stays).imp_of_mem fun {a b} ha hb hab => ?_
  unfold Precedes
  rw [hnumber a ha, hnumber b hb]
  exact hab

/-- A deletion that answers how many records there are fewer says how many are listed no more. -/
theorem Narrowed.removes (hn : Narrowed stays l l') (h : l.Sound) {n : Nat}
    (hcount : n = l.unscanned.size - l'.unscanned.size) : Removes l stays (n, l') := by
  refine ⟨hn.left h, ?_⟩
  have hgone : (l.listUnscanned.filter fun r => decide (r ∉ l'.listUnscanned)) =
      l.listUnscanned.filter fun r => !stays r := by
    refine List.filter_congr fun r hr => ?_
    rw [hn.left h, Bool.eq_iff_iff]
    simp [hr]
  have hlength : l.listUnscanned.length = l.unscanned.size :=
    l.listUnscanned_perm.length_eq.trans (List.length_map _)
  have hlength' : (l.listUnscanned.filter stays).length = l'.unscanned.size := by
    rw [← hn.left h]
    exact l'.listUnscanned_perm.length_eq.trans (List.length_map _)
  have hsum := List.length_eq_length_filter_add (l := l.listUnscanned) stays
  show n = (l.listUnscanned.filter fun r => decide (r ∉ l'.listUnscanned)).length
  rw [hgone]
  omega

end

theorem Sound.deleteUnscannedRecord_removes (h : l.Sound) (height : UInt64) (txid : String) :
    Removes l (fun r => r.id != UnscannedRecord.idOf height txid)
      (l.deleteUnscannedRecord height txid) :=
  (h.deleteUnscannedRecord_narrows height txid).removes h Index.size_sub_erase.symm

theorem Sound.keepUnscanned_removes (h : l.Sound) (test : UnscannedRecord → Bool) :
    Removes l test (l.keepUnscanned test) :=
  (h.keepUnscanned_narrows test).removes h rfl

/-- Dropping blocks answers how many are cached no more. -/
theorem deleteBlocksAbove_count (l : MemoryLedger) (height : UInt64) :
    (l.deleteBlocksAbove height).1 =
      (l.blocks.entries.filter fun e =>
        decide (e ∉ (l.deleteBlocksAbove height).2.blocks.entries)).length := by
  have hgone : (l.blocks.entries.filter fun e =>
      decide (e ∉ (l.deleteBlocksAbove height).2.blocks.entries)) =
      l.blocks.entries.filter fun e => !decide (e.1 ≤ height) := by
    refine List.filter_congr fun e he => ?_
    rw [Bool.eq_iff_iff]
    simp [deleteBlocksAbove, Index.keep, Table.keep, he]
  have hsum := List.length_eq_length_filter_add (l := l.blocks.entries)
    fun e => decide (e.1 ≤ height)
  rw [hgone]
  show l.blocks.entries.length - (l.blocks.entries.filter fun e => decide (e.1 ≤ height)).length = _
  omega

end MemoryLedger

/-! ## Numbers and operations -/

/-- Whether an operation saves a record. -/
def LedgerOp.isSave : LedgerOp → Bool
  | .saveUnscanned _ => true
  | _ => false

/-- Of some operations, the one at a position saves a record, and none after it saves under the
record's identifier. -/
structure LastSaved (ops : List LedgerOp) (r : UnscannedRecord) (position : Nat) : Prop where
  saved : ops[position]? = some (.saveUnscanned r)
  last : ∀ later r', position < later → ops[later]? = some (.saveUnscanned r') → r'.id ≠ r.id

/-- How many of the operations before a position save a record. -/
def savesBefore (ops : List LedgerOp) (position : Nat) : Nat :=
  (ops.take position).countP LedgerOp.isSave

/-- Two records come in the order of their heights, and at one height in that of their last
saves. -/
def SavedInOrder (ops : List LedgerOp) (a b : UnscannedRecord) : Prop :=
  a.height < b.height ∨
    (a.height = b.height ∧ ∃ p q, LastSaved ops a p ∧ LastSaved ops b q ∧ p < q)

/-- The numbers of a ledger count the saves among the operations that led to it. -/
structure MemoryLedger.Dated (ops : List LedgerOp) (l : MemoryLedger) : Prop where
  next : l.nextSequence = ops.countP LedgerOp.isSave
  dated : ∀ r ∈ l.unscanned.values, ∃ position, LastSaved ops r position ∧
    l.sequence.find? r.id = some (savesBefore ops position)

section

variable {ops : List LedgerOp} {op : LedgerOp} {r : UnscannedRecord} {position : Nat}

theorem LastSaved.lt_length (h : LastSaved ops r position) : position < ops.length :=
  (List.getElem?_eq_some_iff.mp h.saved).1

theorem LastSaved.append (h : LastSaved ops r position)
    (hop : ∀ r', op = .saveUnscanned r' → r'.id ≠ r.id) : LastSaved (ops ++ [op]) r position := by
  refine ⟨?_, fun later r' hlater hsaved => ?_⟩
  · rw [List.getElem?_append_left h.lt_length]
    exact h.saved
  · rcases Nat.lt_or_ge later ops.length with hold | hnew
    · rw [List.getElem?_append_left hold] at hsaved
      exact h.last later r' hlater hsaved
    · rw [List.getElem?_append_right hnew] at hsaved
      exact hop r' (List.mem_singleton.mp (List.mem_of_getElem? hsaved)).symm

theorem lastSaved_append_self (ops : List LedgerOp) (r : UnscannedRecord) :
    LastSaved (ops ++ [.saveUnscanned r]) r ops.length := by
  refine ⟨by simp, fun later r' hlater hsaved => ?_⟩
  have hbound := (List.getElem?_eq_some_iff.mp hsaved).1
  rw [List.length_append, List.length_singleton] at hbound
  omega

theorem LastSaved.savesBefore_append (h : LastSaved ops r position) :
    savesBefore (ops ++ [op]) position = savesBefore ops position := by
  unfold savesBefore
  rw [List.take_append_of_le_length (Nat.le_of_lt h.lt_length)]

theorem savesBefore_mono (ops : List LedgerOp) {p q : Nat} (h : p ≤ q) :
    savesBefore ops p ≤ savesBefore ops q :=
  (List.take_sublist_take_left h).countP_le

namespace MemoryLedger

variable {l l' : MemoryLedger}

theorem empty_dated : Dated [] empty :=
  ⟨rfl, fun _ hr => absurd hr List.not_mem_nil⟩

/-- An operation that saves nothing leaves the numbers of the remaining records as they are. -/
theorem Dated.fewer (h : Dated ops l) (hop : op.isSave = false)
    (hnext : l'.nextSequence = l.nextSequence)
    (hleft : ∀ r ∈ l'.unscanned.values, r ∈ l.unscanned.values ∧
      l'.sequence.find? r.id = l.sequence.find? r.id) : Dated (ops ++ [op]) l' := by
  refine ⟨?_, fun r hr => ?_⟩
  · rw [hnext, h.next, List.countP_append, List.countP_singleton, hop]
    rfl
  · obtain ⟨hold, hfind⟩ := hleft r hr
    obtain ⟨position, hsaved, hnumber⟩ := h.dated r hold
    refine ⟨position, hsaved.append ?_, ?_⟩
    · rintro r' rfl
      cases hop
    · rw [hfind, hnumber, hsaved.savesBefore_append]

theorem Dated.narrowed {stays : UnscannedRecord → Bool} (h : Dated ops l) (hsound : l.Sound)
    (hop : op.isSave = false) (hn : Narrowed stays l l') : Dated (ops ++ [op]) l' := by
  refine h.fewer hop hn.next fun r hr => ⟨?_, hn.find?_eq hsound hr⟩
  rw [hn.records_eq] at hr
  exact (List.mem_filter.mp hr).1

theorem Dated.saveUnscanned (h : Dated ops l) (hsound : l.Sound) (r : UnscannedRecord) :
    Dated (ops ++ [.saveUnscanned r]) (l.saveUnscanned r) := by
  refine ⟨?_, fun r' hr' => ?_⟩
  · rw [List.countP_append, ← h.next]
    rfl
  · have hfind : (l.saveUnscanned r).sequence.find? r'.id =
        if r'.id = r.id then some l.nextSequence else l.sequence.find? r'.id :=
      Index.find?_insert _ _ _ _
    rcases List.mem_cons.mp hr' with rfl | hold
    · refine ⟨ops.length, lastSaved_append_self ops r', ?_⟩
      unfold savesBefore
      rw [hfind, if_pos rfl, List.take_left, h.next]
    · obtain ⟨e, he, rfl⟩ := List.mem_map.mp hold
      obtain ⟨hstored, hother⟩ := List.mem_filter.mp he
      have hne : e.2.id ≠ r.id := by
        rw [← hsound.keyed e hstored]
        exact of_decide_eq_true hother
      obtain ⟨position, hsaved, hnumber⟩ := h.dated e.2 (List.mem_map_of_mem hstored)
      refine ⟨position, hsaved.append ?_, ?_⟩
      · rintro r' ⟨⟩
        exact hne.symm
      · rw [hfind, if_neg hne, hnumber, hsaved.savesBefore_append]

/-- **Every operation keeps the numbers.** -/
theorem Dated.perform (h : Dated ops l) (hsound : l.Sound) (op : LedgerOp) :
    Dated (ops ++ [op]) (l.perform op).2 := by
  cases op
  case saveUnscanned r => exact h.saveUnscanned hsound r
  case deleteUnscanned height => exact h.narrowed hsound rfl (hsound.keepUnscanned_narrows _)
  case deleteUnscannedRecord height txid =>
    exact h.narrowed hsound rfl (hsound.deleteUnscannedRecord_narrows height txid)
  case deleteUnscannedByReason lead =>
    exact h.narrowed hsound rfl (hsound.keepUnscanned_narrows _)
  all_goals exact h.fewer rfl rfl fun r hr => ⟨hr, rfl⟩

/-- The numbers put the records of a height in the order of their last saves. -/
theorem Dated.savedInOrder (h : Dated ops l) {a b : UnscannedRecord}
    (ha : a ∈ l.unscanned.values) (hb : b ∈ l.unscanned.values) (hab : l.Precedes a b) :
    SavedInOrder ops a b := by
  obtain ⟨p, hsaved, hnumber⟩ := h.dated a ha
  obtain ⟨q, hsaved', hnumber'⟩ := h.dated b hb
  refine hab.imp_right fun ⟨hheight, hlt⟩ => ⟨hheight, p, q, hsaved, hsaved', ?_⟩
  unfold savedAt at hlt
  rw [hnumber, hnumber'] at hlt
  exact Nat.lt_of_not_le fun hle => Nat.not_lt_of_le (savesBefore_mono ops hle) hlt

/-- So does every sequence of operations. -/
theorem Dated.performing {done : List LedgerOp} (h : Dated done l) (hsound : l.Sound)
    (ops : List LedgerOp) : (l.performing ops).Sound ∧ Dated (done ++ ops) (l.performing ops) := by
  induction ops generalizing done l with
  | nil => exact ⟨hsound, by rwa [List.append_nil]⟩
  | cons op ops ih =>
    rw [List.append_cons]
    exact ih (h.perform hsound op) (hsound.perform op)

end MemoryLedger

end

/-- **The tables of a ledger in memory belong together, and its listings follow from them.**  After
every sequence of operations on the empty ledger, whatever identifiers the saved records carry:
every block and every record is stored under its own key, and the records have distinct numbers
below the next one, each its own.  The listing holds every stored record once, in the order of the
heights and at one height in that of the last saves, however the entries are ordered; the listing of
a height is what it says of this height.  A deletion leaves the listing without what it drops, and
answers how many records, or blocks, are gone. -/
theorem memory_listings (ops : List LedgerOp) :
    let l := MemoryLedger.empty.performing ops
    l.Sound ∧
      (l.listUnscanned.Perm l.unscanned.values ∧ l.listUnscanned.Nodup ∧
        (∀ r ∈ l.listUnscanned, ∃ position, LastSaved ops r position) ∧
        l.listUnscanned.Pairwise (SavedInOrder ops)) ∧
      (∀ table : Index String UnscannedRecord, table.entries.Perm l.unscanned.entries →
        { l with unscanned := table }.listUnscanned = l.listUnscanned ∧
        ∀ height, { l with unscanned := table }.listUnscannedAt height =
          l.listUnscanned.filter fun r => r.height == height) ∧
      (∀ height, l.listUnscannedAt height = l.listUnscanned.filter fun r => r.height == height) ∧
      (∀ height, l.Removes (fun r => r.height != height) (l.perform (.deleteUnscanned height))) ∧
      (∀ height txid, l.Removes (fun r => r.id != UnscannedRecord.idOf height txid)
        (l.perform (.deleteUnscannedRecord height txid))) ∧
      (∀ lead, l.Removes (fun r => !beginsWith lead r.reason)
        (l.perform (.deleteUnscannedByReason lead))) ∧
      ∀ height, (l.perform (.deleteBlocksAbove height)).1 = (l.blocks.entries.filter fun e =>
        decide (e ∉ (l.perform (.deleteBlocksAbove height)).2.blocks.entries)).length := by
  intro l
  obtain ⟨hsound, hdated⟩ := MemoryLedger.empty_dated.performing MemoryLedger.empty_sound ops
  rw [List.nil_append] at hdated
  have hstored : ∀ r ∈ l.listUnscanned, r ∈ l.unscanned.values := fun _ hr =>
    l.listUnscanned_perm.subset hr
  have hnodup : l.listUnscanned.Nodup := l.listUnscanned_perm.nodup_iff.mpr hsound.records_nodup
  have hat : ∀ table : Index String UnscannedRecord, table.entries.Perm l.unscanned.entries →
      ∀ height, l.sorted (table.values.filter fun r => r.height == height) =
        l.listUnscanned.filter fun r => r.height == height := fun table hentries height =>
    hsound.sorted_eq ((hentries.map _).filter _)
  refine ⟨hsound, ⟨l.listUnscanned_perm, hnodup, fun r hr => ?_, ?_⟩,
    fun table hentries => ⟨?_, hat table hentries⟩, hat l.unscanned (.refl _),
    fun height => hsound.keepUnscanned_removes _, hsound.deleteUnscannedRecord_removes,
    fun lead => hsound.keepUnscanned_removes _, l.deleteBlocksAbove_count⟩
  · obtain ⟨position, hsaved, -⟩ := hdated.dated r (hstored r hr)
    exact ⟨position, hsaved⟩
  · exact hsound.listUnscanned_precedes.imp_of_mem fun ha hb hab =>
      hdated.savedInOrder (hstored _ ha) (hstored _ hb) hab
  · refine hsound.eq_listed ?_ (hsound.sorted_precedes ?_ ?_)
    · exact (List.mergeSort_perm _ _).trans (hentries.map _)
    · exact (hentries.map _).subset
    · exact (hentries.map _).nodup_iff.mpr hsound.records_nodup

end WalletScan
