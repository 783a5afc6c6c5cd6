/-!
# Finite tables

A `Table κ α` is a list of entries as they were written, of which the first under a key counts. An
`Index κ α` is a table in which no key comes twice: it is built by operations that keep this, so an
index cannot be ill-formed. The view of a table is `List.lookup` and that of an index `Index.find?`;
one equation per operation says what the operation does to that view:

* `Index.find?_insert` — the inserted key answers the new value, every other key answers as before;
* `Index.find?_erase` — the erased key answers nothing, every other key answers as before;
* `Index.find?_keep_key` — after keeping by a test of the key, keys that fail it answer nothing.
-/

set_option autoImplicit false

namespace WalletScan

/-! ## Entries under keys -/

section

variable {κ α : Type} [BEq κ] [LawfulBEq κ] [DecidableEq κ]

theorem lookup_cons_ite (key key' : κ) (value : α) (entries : List (κ × α)) :
    List.lookup key ((key', value) :: entries) =
      if key = key' then some value else entries.lookup key := by
  by_cases hkey : key = key'
  · rw [if_pos hkey, hkey, List.lookup_cons_self]
  · have hbeq : (key == key') = false := beq_eq_false_iff_ne.mpr hkey
    rw [if_neg hkey, List.lookup_cons, hbeq]

/-- Keys that pass a test are found as before, the others are not. -/
theorem lookup_filter_fst (test : κ → Bool) (key : κ) (entries : List (κ × α)) :
    (entries.filter fun e => test e.1).lookup key =
      if test key then entries.lookup key else none := by
  induction entries with
  | nil => simp
  | cons head rest ih =>
    obtain ⟨key', value⟩ := head
    rw [List.filter_cons, lookup_cons_ite]
    by_cases hkey : key = key'
    · subst hkey
      by_cases htest : test key <;> simp [htest, ih]
    · by_cases htest : test key' <;> simp [lookup_cons_ite, htest, hkey, ih]

end

/-! ## Tables -/

/-- Entries of a finite map. -/
abbrev Table (κ α : Type) := List (κ × α)

namespace Table

variable {κ α : Type} [DecidableEq κ]

/-- Drops the entries of a key. -/
def erase (key : κ) (t : Table κ α) : Table κ α := t.filter fun e => decide (e.1 ≠ key)

/-- Stores a value under a key in place of what was there. -/
def insert (key : κ) (value : α) (t : Table κ α) : Table κ α := (key, value) :: erase key t

/-- Keeps the entries whose key and value pass a test. -/
def keep (test : κ → α → Bool) (t : Table κ α) : Table κ α := t.filter fun e => test e.1 e.2

theorem lookup_erase (key other : κ) (t : Table κ α) :
    (erase key t).lookup other = if other = key then none else t.lookup other := by
  refine (lookup_filter_fst (fun k => decide (k ≠ key)) other t).trans ?_
  by_cases h : other = key <;> simp [h]

theorem lookup_insert (key other : κ) (value : α) (t : Table κ α) :
    (insert key value t).lookup other = if other = key then some value else t.lookup other := by
  refine (lookup_cons_ite other key value _).trans ?_
  by_cases h : other = key
  · rw [if_pos h, if_pos h]
  · rw [if_neg h, if_neg h]
    exact (lookup_erase key other t).trans (if_neg h)

end Table

/-! ## Indices -/

/-- A table in which no key comes twice. -/
structure Index (κ α : Type) where
  entries : Table κ α
  nodup : (entries.map (·.1)).Nodup
deriving DecidableEq, Repr

namespace Index

variable {κ α : Type} [DecidableEq κ]

/-- The index without entries. -/
def empty : Index κ α := ⟨[], .nil⟩

/-- The keys that have an entry. -/
abbrev keys (t : Index κ α) : List κ := t.entries.map (·.1)

/-- The values that are stored. -/
abbrev values (t : Index κ α) : List α := t.entries.map (·.2)

/-- How many entries there are. -/
def size (t : Index κ α) : Nat := t.entries.length

/-- The value stored under a key. -/
def find? (key : κ) (t : Index κ α) : Option α := t.entries.lookup key

/-- Whether a key has an entry. -/
def has (key : κ) (t : Index κ α) : Bool := (t.find? key).isSome

/-- Keeps the entries whose key and value pass a test. -/
def keep (test : κ → α → Bool) (t : Index κ α) : Index κ α :=
  ⟨t.entries.keep test, t.nodup.sublist (List.filter_sublist.map _)⟩

/-- Drops the entry of a key. -/
def erase (key : κ) (t : Index κ α) : Index κ α := t.keep fun k _ => decide (k ≠ key)

/-- Stores a value under a key in place of what was there. -/
def insert (key : κ) (value : α) (t : Index κ α) : Index κ α where
  entries := t.entries.insert key value
  nodup := by
    refine List.nodup_cons.mpr ⟨fun hmem => ?_, (t.erase key).nodup⟩
    obtain ⟨e, he, hkey⟩ := List.mem_map.mp hmem
    exact of_decide_eq_true (List.mem_filter.mp he).2 hkey

theorem find?_insert (key other : κ) (value : α) (t : Index κ α) :
    (t.insert key value).find? other = if other = key then some value else t.find? other :=
  Table.lookup_insert key other value t.entries

theorem find?_keep_key (test : κ → Bool) (key : κ) (t : Index κ α) :
    (t.keep fun k _ => test k).find? key = if test key then t.find? key else none :=
  lookup_filter_fst test key t.entries

theorem find?_erase (key other : κ) (t : Index κ α) :
    (t.erase key).find? other = if other = key then none else t.find? other :=
  Table.lookup_erase key other t.entries

end Index

end WalletScan
