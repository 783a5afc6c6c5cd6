import Mathlib.Data.List.Induction
import Mathlib.Data.List.Nodup
import WalletScan.Table

/-!
# Entries that come once

An index and an owner map hold one entry under a key, and a list may be freed of its repetitions.

* `isSome_lookup_iff_mem_keys`, `mem_iff_lookup` — what is found in a list of entries.  Where every
  key comes once, the entries are what is found under their keys.
* `Index.mem_entries_iff`, `Index.has_iff_mem_keys`, `Index.find?_of_sublist` — the same of an
  index.
* `Index.mem_keys_insert`, `Index.mem_keys_erase`, `Index.size_sub_erase` — the keys after a change.
* `eraseDups_append_singleton`, `nodup_eraseDups` — `List.eraseDups` keeps the first of equal
  elements: read from the left, an element is kept exactly if it did not stand in the list before.
-/

set_option autoImplicit false

namespace WalletScan

/-! ## Looking a key up -/

section

variable {κ α : Type} [BEq κ] [LawfulBEq κ] [DecidableEq κ] {entries : List (κ × α)} {key : κ}
  {value : α}

omit [DecidableEq κ] in
theorem lookup_eq_none_iff_not_mem_keys :
    entries.lookup key = none ↔ key ∉ entries.map (·.1) := by
  simp only [List.lookup_eq_none_iff, bne_iff_ne, ne_eq, List.mem_map, not_exists, not_and]
  exact forall₂_congr fun e he => not_congr eq_comm

omit [DecidableEq κ] in
theorem isSome_lookup_iff_mem_keys : (entries.lookup key).isSome ↔ key ∈ entries.map (·.1) := by
  rw [← Option.ne_none_iff_isSome, ne_eq, lookup_eq_none_iff_not_mem_keys, Decidable.not_not]

/-- Where every key comes once, the entries are what is found. -/
theorem mem_iff_lookup (h : (entries.map (·.1)).Nodup) :
    (key, value) ∈ entries ↔ entries.lookup key = some value := by
  induction entries with
  | nil => simp
  | cons head rest ih =>
    obtain ⟨key', value'⟩ := head
    obtain ⟨hhead, hrest⟩ := List.nodup_cons.mp h
    rw [List.mem_cons, lookup_cons_ite, ih hrest]
    by_cases hkey : key = key'
    · subst hkey
      rw [lookup_eq_none_iff_not_mem_keys.mpr hhead]
      simp [eq_comm]
    · simp [hkey]

end

/-! ## Indices -/

namespace Index

variable {κ α : Type} [DecidableEq κ] {t t' : Index κ α} {key key' : κ} {value : α}

theorem mem_entries_iff : (key, value) ∈ t.entries ↔ t.find? key = some value :=
  mem_iff_lookup t.nodup

theorem has_iff_mem_keys : t.has key ↔ key ∈ t.keys := isSome_lookup_iff_mem_keys

/-- Among some of the entries, a key is found as before. -/
theorem find?_of_sublist (hsub : t'.entries.Sublist t.entries) (hkey : key ∈ t'.keys) :
    t'.find? key = t.find? key := by
  obtain ⟨e, he, rfl⟩ := List.mem_map.mp hkey
  rw [mem_entries_iff.mp he, mem_entries_iff.mp (hsub.subset he)]

theorem mem_keys_insert : key' ∈ (t.insert key value).keys ↔ key' = key ∨ key' ∈ t.keys := by
  rw [← has_iff_mem_keys, ← has_iff_mem_keys, has, has, find?_insert]
  by_cases hkey : key' = key <;> simp [hkey]

theorem mem_keys_erase : key' ∈ (t.erase key).keys ↔ key' ≠ key ∧ key' ∈ t.keys := by
  rw [← has_iff_mem_keys, ← has_iff_mem_keys, has, has, find?_erase]
  by_cases hkey : key' = key <;> simp [hkey]

/-- An index loses one entry at most when a key is erased. -/
theorem size_sub_erase : t.size - (t.erase key).size = if t.has key then 1 else 0 := by
  have hcount : (t.entries.filter fun e => !decide (e.1 ≠ key)).length =
      if t.has key then 1 else 0 := by
    calc (t.entries.filter fun e => !decide (e.1 ≠ key)).length
        = t.keys.count key := by
          rw [← List.countP_eq_length_filter, List.count, List.countP_map]
          refine List.countP_congr fun e _ => ?_
          simp
      _ = if key ∈ t.keys then 1 else 0 := t.nodup.count
      _ = if t.has key then 1 else 0 := if_congr has_iff_mem_keys.symm rfl rfl
  have hsum := List.length_eq_length_filter_add (l := t.entries) fun e => decide (e.1 ≠ key)
  show t.entries.length - (t.entries.filter fun e => decide (e.1 ≠ key)).length = _
  omega

end Index

/-! ## Lists without their repetitions -/

section

variable {α : Type} [DecidableEq α]

/-- An element at the end is kept exactly if it is new. -/
theorem eraseDups_append_singleton (l : List α) (a : α) :
    (l ++ [a]).eraseDups = if a ∈ l then l.eraseDups else l.eraseDups ++ [a] := by
  rw [List.eraseDups_append]
  by_cases ha : a ∈ l
  · simp [List.removeAll, ha]
  · simp [List.removeAll, ha, List.eraseDups_cons]

theorem nodup_eraseDups (l : List α) : l.eraseDups.Nodup := by
  induction l using List.reverseRecOn with
  | nil => simp
  | append_singleton l a ih =>
    rw [eraseDups_append_singleton]
    split
    · exact ih
    · rename_i ha
      rw [← List.concat_eq_append]
      exact ih.concat (mt List.mem_eraseDups.mp ha)

end

end WalletScan
