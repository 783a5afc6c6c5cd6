import WalletScan.Classify
import WalletScan.Proofs.DistinctEntries

/-!
# The values of owners

A sorted owner map holds one value per owner, so it is known by what is found in it.

* `OwnerMap.Sorted.mem_iff_lookup`, `OwnerMap.Sorted.ext` — an owner has the value that is found,
  and a map is known by the values of its owners.
* `OwnerBook.find?_update` — a change is seen under its own key only.
* `OwnerMap.flatMap_update_perm` — what a change appends is all that it adds to the map.
* `classify_sorted` — what a transaction means for its owners comes in their order.
-/

set_option autoImplicit false

namespace WalletScan

/-! ## Fee buckets -/

@[simp]
theorem OwnerKey.isFee_asset (denom source : String) :
    (OwnerKey.mk (.asset denom) source).isFee = false := rfl

@[simp]
theorem OwnerKey.isFee_fee (source : String) : (OwnerKey.mk .fee source).isFee = true := rfl

theorem OwnerMap.exists_of_mem_filter_isFee {α : Type} {m : OwnerMap α} {e : OwnerKey × α}
    (h : e ∈ m.filter (·.1.isFee)) :
    ∃ source v, (⟨.fee, source⟩, v) ∈ m ∧ e = (⟨.fee, source⟩, v) := by
  obtain ⟨hmem, hfee⟩ := List.mem_filter.mp h
  obtain ⟨⟨denom | _, source⟩, v⟩ := e
  · simp at hfee
  · exact ⟨source, v, hmem, rfl⟩

/-! ## Looking an owner up -/

section

variable {α : Type} {m m' : OwnerMap α}

theorem OwnerMap.Sorted.keys_nodup (h : m.Sorted) : (m.map (·.1)).Nodup :=
  List.pairwise_map.mpr (h.imp fun hlt => OwnerKey.ne_of_order_ne_eq (by simp [hlt]))

theorem OwnerMap.Sorted.nodup (h : m.Sorted) : m.Nodup :=
  (List.pairwise_map.mp h.keys_nodup).imp fun hne heq => hne (congrArg Prod.fst heq)

/-- An owner has one value, which is the one that is found. -/
theorem OwnerMap.Sorted.mem_iff_lookup (h : m.Sorted) {k : OwnerKey} {v : α} :
    (k, v) ∈ m ↔ m.lookup k = some v :=
  WalletScan.mem_iff_lookup h.keys_nodup

/-- A change is seen under its own key only. -/
theorem OwnerMap.Sorted.lookup_update (h : m.Sorted) (key : OwnerKey)
    (change : Option α → α) (k : OwnerKey) :
    (m.update key change).lookup k =
      if k = key then some (change (m.lookup key)) else m.lookup k := by
  induction m with
  | nil => exact lookup_cons_ite k key _ []
  | cons head rest ih =>
    obtain ⟨k', v'⟩ := head
    obtain ⟨hhead, hrest⟩ := List.pairwise_cons.mp h
    simp only [OwnerMap.update]
    split
    · rename_i hlt
      have habsent : List.lookup key ((k', v') :: rest) = none := by
        refine lookup_eq_none_iff_not_mem_keys.mpr fun hmem => ?_
        obtain ⟨e, he, hkey⟩ := List.mem_map.mp hmem
        exact OwnerKey.ne_of_order_ne_eq (by simp [h.before hlt e he]) hkey.symm
      rw [habsent, lookup_cons_ite]
    · rename_i heq
      obtain rfl := OwnerKey.eq_of_order_eq heq
      simp only [lookup_cons_ite]
      by_cases hk : k = key <;> simp [hk]
    · rename_i hgt
      have hne : key ≠ k' := OwnerKey.ne_of_order_ne_eq (by simp [hgt])
      simp only [lookup_cons_ite, ih hrest, if_neg hne]
      by_cases hk : k = key
      · simp [hk, hne]
      · simp [hk]

theorem OwnerBook.mem_rows_iff {b : OwnerBook α} {k : OwnerKey} {v : α} :
    (k, v) ∈ b.rows ↔ b.find? k = some v :=
  b.sorted.mem_iff_lookup

theorem OwnerBook.find?_update (b : OwnerBook α) (key : OwnerKey) (change : Option α → α)
    (k : OwnerKey) :
    (b.update key change).find? k = if k = key then some (change (b.find? key)) else b.find? k :=
  b.sorted.lookup_update key change k

/-- A map is known by the values of its owners. -/
theorem OwnerMap.Sorted.ext (h : m.Sorted) (h' : m'.Sorted)
    (hlookup : ∀ k, m.lookup k = m'.lookup k) : m = m' := by
  have hmem : ∀ e, e ∈ m ↔ e ∈ m' := fun ⟨k, v⟩ => by
    rw [h.mem_iff_lookup, h'.mem_iff_lookup, hlookup]
  have hperm : m.Perm m' := (List.perm_ext_iff_of_nodup h.nodup h'.nodup).mpr hmem
  refine hperm.eq_of_pairwise (fun a b _ _ hab hba => ?_) h h'
  have hgt := Std.OrientedCmp.gt_of_lt hba
  rw [hab] at hgt
  cases hgt

/-- If a change only appends to a list in the values, that is all the map gains. -/
theorem OwnerMap.flatMap_update_perm {β : Type} (f : α → List β) (new : List β) (key : OwnerKey)
    {change : Option α → α} (hchange : ∀ d, f (change d) = d.elim [] f ++ new) (m : OwnerMap α) :
    ((m.update key change).flatMap fun e => f e.2).Perm ((m.flatMap fun e => f e.2) ++ new) := by
  induction m with
  | nil => simp [OwnerMap.update, hchange]
  | cons head rest ih =>
    obtain ⟨k, v⟩ := head
    simp only [OwnerMap.update]
    split
    · simp only [List.flatMap_cons, hchange, Option.elim_none, List.nil_append]
      exact List.perm_append_comm
    · simp only [List.flatMap_cons, hchange, Option.elim_some, List.append_assoc]
      exact List.Perm.append_left _ List.perm_append_comm
    · simp only [List.flatMap_cons, List.append_assoc]
      exact List.Perm.append_left _ ih

end

/-! ## Classified transactions -/

section

variable (asset : ChainAsset) (owners : Owners) (blockHash : String) (fee : Option UInt64)
  (tx : Transaction)

/-- Attributes both sides of a group: the step that the classification repeats. -/
def attributeGroup (a : Attribution) (g : TransferGroup) : Attribution :=
  attributeReceivers asset owners blockHash tx g
    (attributeSenders asset owners blockHash fee tx g a)

/-- What a transaction means for its owners comes in the order of the owners. -/
theorem classify_sorted : (classify asset owners blockHash fee tx).Sorted :=
  (tx.groups.foldl (attributeGroup asset owners blockHash fee tx) ⟨.empty, false⟩).data.sorted

end

end WalletScan
