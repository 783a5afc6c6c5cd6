import WalletScan.Proofs.LedgerRefinement

/-!
# The cache of blocks at the sign boundary

A database keeps heights as signed numbers.  Caching a block prunes the rows below a bound that is
found by unsigned subtraction and compared as signed, so the two disagree where the subtraction
crosses `2 ^ 63`: there the bound is among the largest signed numbers, and the block's own height
among the least.

* `pruned_by_itself_iff` — the thousand heights at which a block does not survive its own caching.
* `getBlock_after_put`, `getBlock_after_put_of_ne` — the block at every height afterwards.
* `block_cache_reads_back` — these through the operations of the ledger, and the cursor.
-/

set_option autoImplicit false

namespace WalletScan

/-! ## The sign boundary -/

/-- A block is pruned by its own caching if the kept depth below it crosses the sign boundary. -/
theorem pruned_by_itself_iff (height : UInt64) :
    height.toInt64 < (lowered height RowLedger.cacheDepth).toInt64 ↔
      2 ^ 63 ≤ height.toNat ∧ height.toNat < 2 ^ 63 + 1000 := by
  have hbound : height.toNat < 2 ^ 64 := height.toNat_lt
  have hlowered : (lowered height RowLedger.cacheDepth).toNat = height.toNat - 1000 :=
    lowered_toNat height RowLedger.cacheDepth
  rw [Int64.lt_iff_toInt_lt, toInt_toInt64, toInt_toInt64, hlowered]
  -- the two heights have different signs in the window only, and elsewhere keep their order
  split <;> split <;> omega

/-! ## Blocks after one was cached -/

theorem getBlock_eq_of_rowAt {l l' : RowLedger} {height : UInt64}
    (h : l.rowAt height = l'.rowAt height) : l.getBlock height = l'.getBlock height := by
  unfold RowLedger.rowAt at h
  unfold RowLedger.getBlock
  rw [h]

section

variable (l : RowLedger) (b : Block)

/-- The block at a height after one was cached there. -/
theorem getBlock_after_put :
    (l.putBlock b).getBlock b.height =
      .ok (if 2 ^ 63 ≤ b.height.toNat ∧ b.height.toNat < 2 ^ 63 + 1000 then none
        else some b) := by
  apply getBlock_of_stored
  rw [rowAt_putBlock, if_pos rfl]
  simp only [pruned_by_itself_iff]
  split <;> rfl

/-- The answer at another height after a block was cached: the row there is left as it is, unless
it is pruned. -/
theorem getBlock_after_put_of_ne {height : UInt64} (hne : height ≠ b.height) :
    (l.putBlock b).getBlock height =
      if (lowered b.height RowLedger.cacheDepth).toInt64 ≤ height.toInt64 then l.getBlock height
      else .ok none := by
  have hrow : (l.putBlock b).rowAt height =
      if height.toInt64 < (lowered b.height RowLedger.cacheDepth).toInt64 then none
      else l.rowAt height := by
    rw [rowAt_putBlock, if_neg (Ne.symm hne)]
  split
  · rename_i hkept
    rw [if_neg (Int64.not_lt.mpr hkept)] at hrow
    exact getBlock_eq_of_rowAt hrow
  · rename_i hpruned
    rw [if_pos (Int64.not_le.mp hpruned)] at hrow
    exact getBlock_of_none hrow

end

/-- **The cache of blocks reads back what was written, off the sign boundary.**  A block is read
back after it was cached, unless its height is one of the thousand from `2 ^ 63` on, where it is
pruned at once.  At every other height the answer is the one from before if the height, as a signed
number, is no less than the bound of the kept depth, and nothing is left there otherwise.  A cursor
is read back at every height. -/
theorem block_cache_reads_back (l : RowLedger) :
    (∀ b : Block,
      let after := (l.perform (.putBlock b)).2
      ((after.perform (.getBlock b.height)).1 = .ok (some b) ↔
        ¬ (2 ^ 63 ≤ b.height.toNat ∧ b.height.toNat < 2 ^ 63 + 1000)) ∧
      (2 ^ 63 ≤ b.height.toNat ∧ b.height.toNat < 2 ^ 63 + 1000 →
        (after.perform (.getBlock b.height)).1 = .ok none) ∧
      ∀ height, height ≠ b.height →
        (after.perform (.getBlock height)).1 =
          if (lowered b.height 1000).toInt64 ≤ height.toInt64
          then (l.perform (.getBlock height)).1 else .ok none) ∧
    ∀ c : Cursor, ((l.perform (.setCursor c)).2.perform .getCursor).1 = .ok (some c) := by
  refine ⟨fun b => ⟨?_, ?_, fun height hne => getBlock_after_put_of_ne l b hne⟩, fun c => ?_⟩
  · show (l.putBlock b).getBlock b.height = .ok (some b) ↔ _
    rw [getBlock_after_put]
    split
    · rename_i hboundary
      exact ⟨fun h => (by cases h), fun hoff => absurd hboundary hoff⟩
    · rename_i hoff
      exact ⟨fun _ => hoff, fun _ => rfl⟩
  · intro hboundary
    show (l.putBlock b).getBlock b.height = .ok none
    rw [getBlock_after_put, if_pos hboundary]
  · show Except.ok (some (⟨c.height.toInt64.toUInt64, c.hash⟩ : Cursor)) = _
    rw [UInt64.toUInt64_toInt64]

end WalletScan
