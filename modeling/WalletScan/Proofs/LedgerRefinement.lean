import Mathlib.Algebra.Group.Int.Defs
import Mathlib.Algebra.Group.Nat.Defs
import WalletScan.Proofs.LedgerRecords
import WalletScan.Proofs.DistinctEntries
import WalletScan.Proofs.WrittenValues

/-!
# The ledger in a database refines the ledger in memory

The two kinds of ledgers identify records differently, compare heights as signed and as unsigned
numbers, and only the one in a database prunes its blocks.  From the empty ledger on they answer
alike, except for the blocks that are pruned.

* `Overtaken` — a block far above was cached after the last one at a height.
* `Refines` — what the two ledgers have in common after some operations.
* `Refines.step` — every operation keeps it.
* `rows_answer_as_memory` — the answers of the two to every operation of a sequence.
-/

set_option autoImplicit false

namespace WalletScan

/-! ## Heights -/

/-- A height that a database does not take for a negative number. -/
def InRange (height : UInt64) : Prop := height.toNat < 2 ^ 63

/-- Heights from `2 ^ 63` on stand in a database as negative numbers. -/
theorem toInt_toInt64 (height : UInt64) :
    height.toInt64.toInt =
      if height.toNat < 2 ^ 63 then (height.toNat : Int) else height.toNat - 2 ^ 64 := by
  have hbits : height.toInt64.toInt = height.toBitVec.toInt := rfl
  have hnat : height.toBitVec.toNat = height.toNat := rfl
  rw [hbits, BitVec.toInt_eq_toNat_cond, hnat]
  split <;> split <;> omega

theorem InRange.toInt {height : UInt64} (h : InRange height) :
    height.toInt64.toInt = height.toNat := (toInt_toInt64 height).trans (if_pos h)

theorem InRange.lt_iff {a b : UInt64} (ha : InRange a) (hb : InRange b) :
    a.toInt64 < b.toInt64 ↔ a < b := by
  rw [Int64.lt_iff_toInt_lt, ha.toInt, hb.toInt, UInt64.lt_iff_toNat_lt]
  omega

theorem toInt64_inj {a b : UInt64} : a.toInt64 = b.toInt64 ↔ a = b := by
  refine ⟨fun h => ?_, congrArg _⟩
  rw [← UInt64.toUInt64_toInt64 a, h, UInt64.toUInt64_toInt64]

theorem lowered_toNat (height steps : UInt64) :
    (lowered height steps).toNat = height.toNat - steps.toNat := by
  unfold lowered
  split
  · rename_i hle
    exact UInt64.toNat_sub_of_le _ _ hle
  · rename_i hlt
    rw [UInt64.le_iff_toNat_le] at hlt
    show 0 = _
    omega

theorem InRange.after_lowered {height : UInt64} (h : InRange height) (steps : UInt64) :
    InRange (lowered height steps) := by
  unfold InRange at h ⊢
  rw [lowered_toNat]
  omega

/-! ## Sequences of operations -/

namespace LedgerOp

/-- The heights that an operation names. -/
def heights : LedgerOp → List UInt64
  | .setCursor c => [c.height]
  | .getBlock height => [height]
  | .putBlock b => [b.height]
  | .deleteBlocksAbove height => [height]
  | .listUnscannedAt height => [height]
  | .saveUnscanned r => [r.height]
  | .deleteUnscanned height => [height]
  | .deleteUnscannedRecord height _ => [height]
  | _ => []

/-- The records that an operation names by height and transaction. -/
def named : LedgerOp → List UnscannedRecord
  | .saveUnscanned r => [r]
  | .deleteUnscannedRecord height txid => [.of height txid ""]
  | _ => []

end LedgerOp

/-- A ledger in memory after a sequence of operations. -/
def MemoryLedger.performing (ops : List LedgerOp) (l : MemoryLedger) : MemoryLedger :=
  ops.foldl (fun l op => (l.perform op).2) l

/-- A ledger in a database after a sequence of operations. -/
def RowLedger.performing (ops : List LedgerOp) (l : RowLedger) : RowLedger :=
  ops.foldl (fun l op => (l.perform op).2) l

/-- After the last block that was cached at a height, one more than the kept depth above it was. -/
def Overtaken (height : UInt64) (ops : List LedgerOp) : Prop :=
  ∃ before b after, ops = before ++ .putBlock b :: after ∧
    height.toNat + RowLedger.cacheDepth.toNat < b.height.toNat ∧
    ∀ a, .putBlock a ∈ after → a.height ≠ height

theorem overtaken_append {height : UInt64} {ops : List LedgerOp} {op : LedgerOp}
    (hop : ∀ b, op ≠ .putBlock b) : Overtaken height (ops ++ [op]) ↔ Overtaken height ops := by
  constructor
  · rintro ⟨before, b, after, heq, hfar, hlast⟩
    rcases List.eq_nil_or_concat after with rfl | ⟨after, op', rfl⟩
    · have hlast := List.append_inj_right' heq rfl
      exact absurd (List.cons.inj hlast).1 (hop b)
    · rw [List.concat_eq_append, ← List.cons_append, ← List.append_assoc] at heq
      obtain ⟨rfl, -⟩ := List.append_inj' heq rfl
      exact ⟨before, b, after, rfl, hfar, fun a ha => hlast a (by simp [ha])⟩
  · rintro ⟨before, b, after, rfl, hfar, hlast⟩
    refine ⟨before, b, after ++ [op], by simp, hfar, fun a ha => ?_⟩
    rcases List.mem_append.mp ha with hold | hnew
    · exact hlast a hold
    · exact absurd (List.mem_singleton.mp hnew).symm (hop a)

theorem overtaken_append_putBlock {height : UInt64} {ops : List LedgerOp} {b : Block} :
    Overtaken height (ops ++ [.putBlock b]) ↔
      height.toNat + RowLedger.cacheDepth.toNat < b.height.toNat ∨
        (Overtaken height ops ∧ b.height ≠ height) := by
  constructor
  · rintro ⟨before, b', after, heq, hfar, hlast⟩
    rcases List.eq_nil_or_concat after with rfl | ⟨after, op', rfl⟩
    · have hput := List.append_inj_right' heq rfl
      cases hput
      exact .inl hfar
    · rw [List.concat_eq_append, ← List.cons_append, ← List.append_assoc] at heq
      obtain ⟨rfl, hop⟩ := List.append_inj' heq rfl
      cases hop
      refine .inr ⟨⟨before, b', after, rfl, hfar, fun a ha => hlast a (by simp [ha])⟩, ?_⟩
      exact hlast b (by simp)
  · rintro (hfar | ⟨⟨before, b', after, rfl, hfar, hlast⟩, hne⟩)
    · exact ⟨ops, b, [], rfl, hfar, by simp⟩
    · refine ⟨before, b', after ++ [.putBlock b], by simp, hfar, fun a ha => ?_⟩
      rcases List.mem_append.mp ha with hold | hnew
      · exact hlast a hold
      · cases List.mem_singleton.mp hnew
        exact hne

/-! ## Blocks -/

/-- The row of the block at a height. -/
def RowLedger.rowAt (height : UInt64) (l : RowLedger) : Option BlockRow :=
  l.blocks.find? fun row => row.height == height.toInt64

section

variable {l : RowLedger} {height : UInt64}

theorem getBlock_of_none (h : l.rowAt height = none) : l.getBlock height = .ok none := by
  unfold RowLedger.rowAt at h
  unfold RowLedger.getBlock
  rw [h]

theorem getBlock_of_stored {stored : Option Block}
    (h : l.rowAt height = stored.map BlockRow.ofBlock) : l.getBlock height = .ok stored := by
  cases stored with
  | none => exact getBlock_of_none h
  | some b =>
    unfold RowLedger.rowAt at h
    unfold RowLedger.getBlock
    rw [h]
    show (BlockRow.ofBlock b).block.map some = _
    rw [BlockRow.block_ofBlock]
    rfl

/-- Rows that are kept by their heights are found as before, or not at all. -/
theorem find?_filter_height (test : Int64 → Bool) (key : Int64) (rows : List BlockRow) :
    (rows.filter fun row => test row.height).find? (fun row => row.height == key) =
      if test key then rows.find? (fun row => row.height == key) else none := by
  rw [List.find?_filter]
  split
  · rename_i htest
    congr 1
    funext row
    rw [Bool.eq_iff_iff]
    grind
  · rename_i htest
    rw [List.find?_eq_none]
    grind

theorem rowAt_deleteBlocksAbove (bound : UInt64) :
    (l.deleteBlocksAbove bound).2.rowAt height =
      if bound.toInt64 < height.toInt64 then none else l.rowAt height := by
  refine (find?_filter_height (fun h => !decide (bound.toInt64 < h)) _ l.blocks).trans ?_
  by_cases hlt : bound.toInt64 < height.toInt64
  · simp [hlt]
  · simp [hlt, RowLedger.rowAt]

theorem rowAt_putBlock (b : Block) :
    (l.putBlock b).rowAt height =
      if height.toInt64 < (lowered b.height RowLedger.cacheDepth).toInt64 then none
      else if b.height = height then some (.ofBlock b) else l.rowAt height := by
  refine (find?_filter_height
    (fun h => !decide (h < (lowered b.height RowLedger.cacheDepth).toInt64)) _
    (l.upsertBlock b).blocks).trans ?_
  by_cases hlt : height.toInt64 < (lowered b.height RowLedger.cacheDepth).toInt64
  · simp [hlt]
  · simp only [hlt, decide_false, Bool.not_false, if_true, if_false]
    by_cases heq : b.height = height
    · rw [if_pos heq]
      refine List.find?_cons_of_pos ?_
      rw [← heq]
      exact beq_self_eq_true _
    · have hne : (BlockRow.ofBlock b).height ≠ height.toInt64 := fun h => heq (toInt64_inj.mp h)
      rw [if_neg heq]
      refine (List.find?_cons_of_neg (by simpa using hne)).trans ?_
      refine (find?_filter_height (fun h => h != b.height.toInt64) _ l.blocks).trans ?_
      rw [if_pos]
      · rfl
      · rw [bne_iff_ne]
        exact hne.symm

end

/-! ## Records -/

/-- Two listings hold the same records, both by height. -/
structure SameListing (listed listed' : List UnscannedRecord) : Prop where
  perm : listed.Perm listed'
  sorted : listed.Pairwise fun r r' => r.height ≤ r'.height
  sorted' : listed'.Pairwise fun r r' => r.height ≤ r'.height

theorem MemoryLedger.listedBefore_total (l : MemoryLedger) (a b : UnscannedRecord) :
    (l.listedBefore a b || l.listedBefore b a) = true := by
  unfold MemoryLedger.listedBefore
  simp only [Bool.or_eq_true, Bool.and_eq_true, decide_eq_true_eq, beq_iff_eq,
    UInt64.lt_iff_toNat_lt, ← UInt64.toNat_inj]
  omega

theorem MemoryLedger.listedBefore_trans (l : MemoryLedger) (a b c : UnscannedRecord)
    (hab : l.listedBefore a b = true) (hbc : l.listedBefore b c = true) :
    l.listedBefore a c = true := by
  unfold MemoryLedger.listedBefore at *
  simp only [Bool.or_eq_true, Bool.and_eq_true, decide_eq_true_eq, beq_iff_eq,
    UInt64.lt_iff_toNat_lt, ← UInt64.toNat_inj] at *
  omega

theorem MemoryLedger.sorted_pairwise (l : MemoryLedger) (records : List UnscannedRecord) :
    (l.sorted records).Pairwise fun r r' => r.height ≤ r'.height := by
  refine (List.pairwise_mergeSort l.listedBefore_trans l.listedBefore_total records).imp ?_
  intro r r' h
  unfold MemoryLedger.listedBefore at h
  simp only [Bool.or_eq_true, Bool.and_eq_true, decide_eq_true_eq, beq_iff_eq] at h
  grind

theorem RowLedger.listedBefore_total (a b : RecordRow) :
    (RowLedger.listedBefore a b || RowLedger.listedBefore b a) = true := by
  unfold RowLedger.listedBefore
  simp only [Bool.or_eq_true, Bool.and_eq_true, decide_eq_true_eq, beq_iff_eq,
    Int64.lt_iff_toInt_lt, ← Int64.toInt_inj]
  have htotal := String.le_total a.id b.id
  grind

theorem RowLedger.listedBefore_trans (a b c : RecordRow)
    (hab : RowLedger.listedBefore a b = true) (hbc : RowLedger.listedBefore b c = true) :
    RowLedger.listedBefore a c = true := by
  unfold RowLedger.listedBefore at *
  simp only [Bool.or_eq_true, Bool.and_eq_true, decide_eq_true_eq, beq_iff_eq,
    Int64.lt_iff_toInt_lt, ← Int64.toInt_inj] at *
  have htrans : a.id ≤ b.id → b.id ≤ c.id → a.id ≤ c.id := String.le_trans
  grind

theorem sortedRows_pairwise {rows : List RecordRow}
    (hrange : ∀ row ∈ rows, InRange row.record.height) :
    ((rows.mergeSort RowLedger.listedBefore).map RecordRow.record).Pairwise
      fun r r' => r.height ≤ r'.height := by
  rw [List.pairwise_map]
  refine (List.pairwise_mergeSort RowLedger.listedBefore_trans RowLedger.listedBefore_total
    rows).imp_of_mem ?_
  intro row row' hrow hrow' h
  have hin := hrange row (List.mem_mergeSort.mp hrow)
  have hin' := hrange row' (List.mem_mergeSort.mp hrow')
  have hheight : ∀ row : RecordRow, row.record.height.toInt64 = row.height := fun row =>
    Int64.toInt64_toUInt64 _
  unfold RowLedger.listedBefore at h
  simp only [Bool.or_eq_true, Bool.and_eq_true, decide_eq_true_eq, beq_iff_eq] at h
  rcases h with hlt | ⟨heq, -⟩
  · rw [← hheight row, ← hheight row', hin.lt_iff hin'] at hlt
    exact UInt64.le_of_lt hlt
  · have hsame : row.record.height = row'.record.height := congrArg Int64.toUInt64 heq
    rw [hsame]
    exact UInt64.le_refl _

/-! ## The simulation -/

/-- An operation names heights in range only, and saves and deletes records of a list only. -/
structure Admissible (all : List UnscannedRecord) (op : LedgerOp) : Prop where
  inRange : ∀ height ∈ op.heights, InRange height
  among : op.Among all

/-- What a ledger in memory and one in a database have in common after some operations.  A block
that was not overtaken since is the same in both. -/
structure Refines (all : List UnscannedRecord) (ops : List LedgerOp) (m : MemoryLedger)
    (l : RowLedger) : Prop where
  cursor : l.getCursor = m.cursor
  records : (Ledger.rows l).records = (Ledger.memory m).records
  kept : (Ledger.memory m).WellKept
  among : (Ledger.memory m).records ⊆ all
  overtaken : ∀ height, InRange height → Overtaken height ops → l.rowAt height = none
  cached : ∀ height, InRange height → ¬ Overtaken height ops →
    l.rowAt height = (m.getBlock height).map BlockRow.ofBlock

section

variable {all : List UnscannedRecord} {ops : List LedgerOp} {m : MemoryLedger} {l : RowLedger}
  {op : LedgerOp}

theorem getCursor_perform (h : l.getCursor = m.cursor) (op : LedgerOp) :
    (l.perform op).2.getCursor = (m.perform op).2.cursor := by
  cases op
  case setCursor c =>
    show some (⟨c.height.toInt64.toUInt64, c.hash⟩ : Cursor) = some c
    rw [UInt64.toUInt64_toInt64]
  all_goals exact h

/-- A height is pruned if the new block is more than the kept depth above it. -/
theorem InRange.pruned_iff {height : UInt64} (h : InRange height) {b : Block}
    (hb : InRange b.height) :
    height.toInt64 < (lowered b.height RowLedger.cacheDepth).toInt64 ↔
      height.toNat + RowLedger.cacheDepth.toNat < b.height.toNat := by
  rw [h.lt_iff (hb.after_lowered _), UInt64.lt_iff_toNat_lt, lowered_toNat]
  omega

theorem Refines.putBlock (h : Refines all ops m l) {b : Block} (hb : InRange b.height)
    {height : UInt64} (hheight : InRange height) :
    (Overtaken height (ops ++ [.putBlock b]) → (l.putBlock b).rowAt height = none) ∧
      (¬ Overtaken height (ops ++ [.putBlock b]) →
        (l.putBlock b).rowAt height = ((m.putBlock b).getBlock height).map BlockRow.ofBlock) := by
  have hmemory : (m.putBlock b).getBlock height =
      if height = b.height then some b else m.getBlock height := Index.find?_insert _ _ _ _
  rw [overtaken_append_putBlock, rowAt_putBlock, hmemory, ← hheight.pruned_iff hb]
  by_cases hfar : height.toInt64 < (lowered b.height RowLedger.cacheDepth).toInt64
  · exact ⟨fun _ => if_pos hfar, fun hkept => absurd (.inl hfar) hkept⟩
  · rw [if_neg hfar]
    by_cases hsame : b.height = height
    · rw [if_pos hsame, if_pos hsame.symm]
      refine ⟨?_, fun _ => rfl⟩
      rintro (hpruned | ⟨-, hne⟩)
      · exact absurd hpruned hfar
      · exact absurd hsame hne
    · rw [if_neg hsame, if_neg (Ne.symm hsame)]
      refine ⟨?_, fun hkept => h.cached height hheight fun hold => hkept (.inr ⟨hold, hsame⟩)⟩
      rintro (hpruned | ⟨hold, -⟩)
      · exact absurd hpruned hfar
      · exact h.overtaken height hheight hold

theorem Refines.deleteBlocksAbove (h : Refines all ops m l) {bound : UInt64}
    (hbound : InRange bound) {height : UInt64} (hheight : InRange height) :
    (Overtaken height ops → (l.deleteBlocksAbove bound).2.rowAt height = none) ∧
      (¬ Overtaken height ops → (l.deleteBlocksAbove bound).2.rowAt height =
        ((m.deleteBlocksAbove bound).2.getBlock height).map BlockRow.ofBlock) := by
  have hmemory : (m.deleteBlocksAbove bound).2.getBlock height =
      if decide (height ≤ bound) then m.getBlock height else none :=
    Index.find?_keep_key (fun h => decide (h ≤ bound)) height m.blocks
  rw [rowAt_deleteBlocksAbove, hmemory]
  by_cases hlt : bound.toInt64 < height.toInt64
  · have habove : ¬ height ≤ bound := UInt64.not_le.mpr ((hbound.lt_iff hheight).mp hlt)
    simp [hlt, habove]
  · have hbelow : height ≤ bound := UInt64.not_lt.mp fun h => hlt ((hbound.lt_iff hheight).mpr h)
    simp only [hlt, hbelow, decide_true, if_true, if_false]
    exact ⟨h.overtaken height hheight, h.cached height hheight⟩

/-- **Every operation keeps what the two ledgers have in common.** -/
theorem Refines.step (hall : Distinct all) (h : Refines all ops m l) (hop : Admissible all op) :
    Refines all (ops ++ [op]) (m.perform op).2 (l.perform op).2 := by
  have hrecords := memory_records hall h.kept.keyed h.among hop.among
  have hblocks : ∀ height, InRange height →
      (Overtaken height (ops ++ [op]) → (l.perform op).2.rowAt height = none) ∧
        (¬ Overtaken height (ops ++ [op]) → (l.perform op).2.rowAt height =
          ((m.perform op).2.getBlock height).map BlockRow.ofBlock) := by
    intro height hheight
    cases op
    case putBlock b => exact h.putBlock (hop.inRange _ List.mem_cons_self) hheight
    case deleteBlocksAbove bound =>
      rw [overtaken_append (by simp)]
      exact h.deleteBlocksAbove (hop.inRange _ List.mem_cons_self) hheight
    all_goals
      rw [overtaken_append (by simp)]
      exact ⟨h.overtaken height hheight, h.cached height hheight⟩
  refine ⟨getCursor_perform h.cursor op, ?_, h.kept.perform ?_, ?_, fun height hheight =>
    (hblocks height hheight).1, fun height hheight => (hblocks height hheight).2⟩
  · rw [hrecords, rows_records hop.among, h.records]
  · rintro r rfl
    exact hall.computed r hop.among
  · show (Ledger.memory (m.perform op).2).records ⊆ all
    rw [hrecords]
    exact onRecords_subset hop.among h.among

/-! ## Answers -/

/-- What a database answers to an operation after a sequence of others, seen from the answer of a
ledger in memory. -/
def Agrees (before : List LedgerOp) :
    (op : LedgerOp) → op.Answer → Except LedgerError op.Answer → Prop
  | .getBlock height, stored, answer =>
    (Overtaken height before → answer = .ok none) ∧
      (¬ Overtaken height before → answer = .ok stored)
  | .deleteBlocksAbove _, _, answer => ∃ dropped, answer = .ok dropped
  | .listUnscanned, listed, answer => ∃ listed', answer = .ok listed' ∧ SameListing listed listed'
  | .listUnscannedAt _, listed, answer =>
    ∃ listed', answer = .ok listed' ∧ SameListing listed listed'
  | _, a, answer => answer = .ok a

/-- A deletion of records answers by how many they have become fewer. -/
theorem memory_deletion (test : UnscannedRecord → Bool) (m : MemoryLedger) :
    (m.keepUnscanned test).1 = (Ledger.memory m).records.length -
      (Ledger.memory (m.keepUnscanned test).2).records.length := by
  unfold Ledger.records
  rw [List.length_map, List.length_map]
  rfl

theorem memory_record_deletion (height : UInt64) (txid : String) (m : MemoryLedger) :
    (m.deleteUnscannedRecord height txid).1 = (Ledger.memory m).records.length -
      (Ledger.memory (m.deleteUnscannedRecord height txid).2).records.length := by
  unfold Ledger.records
  rw [List.length_map, List.length_map]
  exact Index.size_sub_erase.symm

theorem rows_deletion (test : RecordRow → Bool) (l : RowLedger) :
    (l.keepUnscanned test).1 = (Ledger.rows l).records.length -
      (Ledger.rows (l.keepUnscanned test).2).records.length := by
  unfold Ledger.records
  rw [List.length_map, List.length_map]
  rfl

/-- The two ledgers list the same records, and they list them by height. -/
theorem Refines.listing (h : Refines all ops m l) (hrange : ∀ r ∈ all, InRange r.height) :
    SameListing m.listUnscanned l.listUnscanned := by
  refine ⟨?_, m.sorted_pairwise _, sortedRows_pairwise fun row hrow => ?_⟩
  · have hlisted : m.listUnscanned.Perm (Ledger.memory m).records := List.mergeSort_perm _ _
    have hlisted' : l.listUnscanned.Perm (Ledger.rows l).records :=
      (List.mergeSort_perm _ _).map _
    rw [h.records] at hlisted'
    exact hlisted.trans hlisted'.symm
  · have hmem : row.record ∈ (Ledger.rows l).records := List.mem_map_of_mem hrow
    rw [h.records] at hmem
    exact hrange _ (h.among hmem)

theorem Refines.listing_at (h : Refines all ops m l) (hrange : ∀ r ∈ all, InRange r.height)
    (height : UInt64) : SameListing (m.listUnscannedAt height) (l.listUnscannedAt height) := by
  have hrows : (l.unscanned.filter fun row => row.height == height.toInt64).map RecordRow.record =
      (Ledger.memory m).records.filter fun r => r.height == height := by
    rw [← h.records]
    refine map_filter_of_eq fun row _ => ?_
    rw [Bool.eq_iff_iff]
    simp [toInt64_eq_iff]
  refine ⟨?_, m.sorted_pairwise _, sortedRows_pairwise fun row hrow => ?_⟩
  · have hlisted : (m.listUnscannedAt height).Perm
        ((Ledger.memory m).records.filter fun r => r.height == height) := List.mergeSort_perm _ _
    have hlisted' : (l.listUnscannedAt height).Perm
        ((l.unscanned.filter fun row => row.height == height.toInt64).map RecordRow.record) :=
      (List.mergeSort_perm _ _).map _
    rw [hrows] at hlisted'
    exact hlisted.trans hlisted'.symm
  · have hmem := List.mem_map_of_mem (f := RecordRow.record) hrow
    rw [hrows] at hmem
    exact hrange _ (h.among (List.mem_filter.mp hmem).1)

theorem Refines.agrees (hall : Distinct all) (hrange : ∀ r ∈ all, InRange r.height)
    (h : Refines all ops m l) (hop : Admissible all op) :
    Agrees ops op (m.perform op).1 (l.perform op).1 := by
  -- a deletion is counted by the records that are left
  have hcount : (Ledger.rows l).records.length - (Ledger.rows (l.perform op).2).records.length =
      (Ledger.memory m).records.length - (Ledger.memory (m.perform op).2).records.length := by
    rw [h.records, (h.step hall hop).records]
  cases op
  case getCursor => exact congrArg Except.ok h.cursor
  case setCursor c => rfl
  case getBlock height =>
    have hheight := hop.inRange _ List.mem_cons_self
    exact ⟨fun hold => getBlock_of_none (h.overtaken height hheight hold),
      fun hkept => getBlock_of_stored (h.cached height hheight hkept)⟩
  case putBlock b => rfl
  case deleteBlocksAbove bound => exact ⟨_, rfl⟩
  case listUnscanned => exact ⟨_, rfl, h.listing hrange⟩
  case listUnscannedAt height => exact ⟨_, rfl, h.listing_at hrange height⟩
  case saveUnscanned r => rfl
  case deleteUnscanned height =>
    refine congrArg Except.ok ?_
    exact (rows_deletion _ l).trans (hcount.trans (memory_deletion _ m).symm)
  case deleteUnscannedRecord height txid =>
    refine congrArg Except.ok ?_
    exact (rows_deletion _ l).trans (hcount.trans (memory_record_deletion height txid m).symm)
  case deleteUnscannedByReason lead =>
    refine congrArg Except.ok ?_
    exact (rows_deletion _ l).trans (hcount.trans (memory_deletion _ m).symm)

end

/-! ## From the empty ledger on -/

theorem empty_refines (all : List UnscannedRecord) : Refines all [] .empty .empty := by
  refine ⟨rfl, rfl, empty_wellKept, List.nil_subset _, fun _ _ _ => rfl, fun _ _ _ => rfl⟩

theorem Refines.performing {all : List UnscannedRecord} (hall : Distinct all)
    {done : List LedgerOp} {m : MemoryLedger} {l : RowLedger} (h : Refines all done m l)
    {ops : List LedgerOp} (hops : ∀ op ∈ ops, Admissible all op) :
    Refines all (done ++ ops) (m.performing ops) (l.performing ops) := by
  induction ops generalizing done m l with
  | nil => rwa [List.append_nil]
  | cons op ops ih =>
    rw [List.forall_mem_cons] at hops
    rw [List.append_cons]
    exact ih (h.step hall hops.1) hops.2

/-- A sequence of operations is admissible for the records that it names. -/
theorem admissible_of_named {ops : List LedgerOp}
    (hheights : ∀ op ∈ ops, ∀ height ∈ op.heights, InRange height)
    (hleads : ∀ lead, .deleteUnscannedByReason lead ∈ ops → '\x00' ∉ lead.toList) :
    ∀ op ∈ ops, Admissible (ops.flatMap LedgerOp.named) op := by
  intro op hop
  refine ⟨hheights op hop, ?_⟩
  have hnamed : ∀ r ∈ op.named, r ∈ ops.flatMap LedgerOp.named := fun r hr =>
    List.mem_flatMap.mpr ⟨op, hop, hr⟩
  cases op
  case saveUnscanned r => exact hnamed r List.mem_cons_self
  case deleteUnscannedRecord height txid => exact ⟨_, hnamed _ List.mem_cons_self, rfl, rfl⟩
  case deleteUnscannedByReason lead => exact hleads lead hop
  all_goals trivial

theorem named_inRange {ops : List LedgerOp}
    (hheights : ∀ op ∈ ops, ∀ height ∈ op.heights, InRange height) :
    ∀ r ∈ ops.flatMap LedgerOp.named, InRange r.height := by
  intro r hr
  obtain ⟨op, hop, hnamed⟩ := List.mem_flatMap.mp hr
  refine hheights op hop _ ?_
  cases op
  case saveUnscanned r' =>
    rw [List.mem_singleton.mp hnamed]
    exact List.mem_cons_self
  case deleteUnscannedRecord height txid =>
    rw [List.mem_singleton.mp hnamed]
    exact List.mem_cons_self
  all_goals exact absurd hnamed List.not_mem_nil

/-- **The ledger in a database answers as the one in memory.**  Take a sequence of operations on the
empty ledger that names no height from `2 ^ 63` on, saves records under their computed identifiers
only, and purges by texts without NUL, and let SHA-256 keep the identifiers apart that it names.
Then the answers of the two kinds of ledgers to every operation of the sequence agree: the cursor
and the numbers of deleted records are the same, listings hold the same records and are sorted by
height, and a block is answered as from memory unless one far above was cached after it; then it is
missing. -/
theorem rows_answer_as_memory {ops : List LedgerOp}
    (hheights : ∀ op ∈ ops, ∀ height ∈ op.heights, InRange height)
    (hleads : ∀ lead, .deleteUnscannedByReason lead ∈ ops → '\x00' ∉ lead.toList)
    (hdistinct : Distinct (ops.flatMap LedgerOp.named)) {before after : List LedgerOp}
    {op : LedgerOp} (hops : ops = before ++ op :: after) :
    Agrees before op ((MemoryLedger.empty.performing before).perform op).1
      ((RowLedger.empty.performing before).perform op).1 := by
  have hadmissible := admissible_of_named hheights hleads
  have hbefore : ∀ op' ∈ before, Admissible (ops.flatMap LedgerOp.named) op' := by
    intro op' hop'
    refine hadmissible op' ?_
    rw [hops]
    exact List.mem_append_left _ hop'
  have hrefines := (empty_refines _).performing hdistinct hbefore
  exact hrefines.agrees hdistinct (named_inRange hheights) (hadmissible op (by simp [hops]))

/-- The last operations read a block that was cached far below another one, and drop a record. -/
def prunedOps : List LedgerOp :=
  [.putBlock ⟨⟨"h5", "h4", 5, 0⟩, ["t5"]⟩, .saveUnscanned (.of 5 "t5" "no answer"),
    .saveUnscanned (.of 6 "" "no block"), .putBlock ⟨⟨"h1006", "h1005", 1006, 0⟩, []⟩, .getBlock 5,
    .deleteUnscannedRecord 5 "t5"]

/-- The block is missing in the database only, and both ledgers have dropped one record. -/
theorem prunedOps_answers :
    ((MemoryLedger.empty.performing (prunedOps.take 4)).perform (.getBlock 5)).1 =
      some ⟨⟨"h5", "h4", 5, 0⟩, ["t5"]⟩ ∧
    ((RowLedger.empty.performing (prunedOps.take 4)).perform (.getBlock 5)).1 = .ok none ∧
    ((RowLedger.empty.performing (prunedOps.take 5)).perform (.deleteUnscannedRecord 5 "t5")).1 =
      .ok 1 := by
  have hheights : ∀ op ∈ prunedOps, ∀ height ∈ op.heights, InRange height := by
    simp [prunedOps, LedgerOp.heights, InRange, Block.height, UnscannedRecord.of]
  have hleads : ∀ lead, .deleteUnscannedByReason lead ∈ prunedOps → '\x00' ∉ lead.toList := by
    simp [prunedOps]
  have hdistinct : Distinct (prunedOps.flatMap LedgerOp.named) :=
    ⟨by simp [prunedOps, LedgerOp.named, UnscannedRecord.of], injOn_hexOfText (by decide +kernel)⟩
  have hanswer (before after : List LedgerOp) (op : LedgerOp)
      (hops : prunedOps = before ++ op :: after) :=
    rows_answer_as_memory hheights hleads hdistinct hops
  refine ⟨rfl, ?_, ?_⟩
  · obtain ⟨hovertaken, -⟩ := hanswer (prunedOps.take 4) _ (.getBlock 5) rfl
    refine hovertaken ⟨prunedOps.take 3, ⟨⟨"h1006", "h1005", 1006, 0⟩, []⟩, [], rfl, ?_, ?_⟩
    · decide
    · simp
  · have hcounted := hanswer (prunedOps.take 5) [] (.deleteUnscannedRecord 5 "t5") rfl
    refine hcounted.trans (congrArg Except.ok ?_)
    decide +kernel

end WalletScan
