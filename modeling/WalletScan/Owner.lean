/-!
# Owners of extracted data

Extracted data is addressed to a bucket of a wallet source: the bucket of a denomination, or the
bucket of fee charges. An `OwnerMap` lists values of owners, and `OwnerMap.Sorted` says that it has
one per owner, in the order of the owners: asset buckets by denomination and source, then fee
buckets by source. Changing a value keeps that order, so an `OwnerBook`, which is built by such
changes alone, carries it.

Specification: section 3 (`OwnerKey`).
-/

set_option autoImplicit false

namespace WalletScan

/-- Which bucket of a wallet source a record belongs to. -/
inductive Bucket where
  /-- Movements of a denomination. -/
  | asset (denom : String)
  /-- Fee charges, always in the chain's native asset. -/
  | fee
deriving DecidableEq, Repr

/-- A bucket of a wallet source. -/
structure OwnerKey where
  bucket : Bucket
  sourceKey : String
deriving DecidableEq, Repr

/-- Asset buckets by denomination, then the fee bucket. Texts compare by code point. -/
def Bucket.order : Bucket → Bucket → Ordering
  | .asset a, .asset b => compare a b
  | .asset _, .fee => .lt
  | .fee, .asset _ => .gt
  | .fee, .fee => .eq

theorem Bucket.order_swap (a b : Bucket) : a.order b = (b.order a).swap := by
  cases a with
  | asset denom =>
    cases b with
    | asset denom' => exact Std.OrientedOrd.eq_swap
    | fee => rfl
  | fee => cases b <;> rfl

theorem Bucket.order_isLE_trans {a b c : Bucket} (hab : (a.order b).isLE)
    (hbc : (b.order c).isLE) : (a.order c).isLE := by
  cases a with
  | asset denom =>
    cases c with
    | asset denom' =>
      cases b with
      | asset middle => exact @Std.TransCmp.isLE_trans String compare _ _ _ _ hab hbc
      | fee => cases hbc
    | fee => rfl
  | fee =>
    cases b with
    | asset denom => cases hab
    | fee => exact hbc

instance : Ord Bucket := ⟨Bucket.order⟩

instance : Std.TransOrd Bucket where
  eq_swap {a b} := Bucket.order_swap a b
  isLE_trans := Bucket.order_isLE_trans

theorem Bucket.eq_of_order_eq {a b : Bucket} (h : a.order b = .eq) : a = b := by
  cases a with
  | asset denom =>
    cases b with
    | asset denom' =>
      have hdenoms : compare denom denom' = .eq := h
      rw [Std.LawfulEqCmp.eq_of_compare hdenoms]
    | fee => cases h
  | fee =>
    cases b with
    | asset denom => cases h
    | fee => rfl

namespace OwnerKey

/-- By bucket, then by source. -/
def order (a b : OwnerKey) : Ordering :=
  (a.bucket.order b.bucket).then (compare a.sourceKey b.sourceKey)

/-- Whether the key names the fee bucket. -/
def isFee (k : OwnerKey) : Bool := k.bucket == .fee

/-- The text `denomination:source`, or `fee:source` for the fee bucket. -/
def render (k : OwnerKey) : String :=
  match k.bucket with
  | .asset denom => denom ++ ":" ++ k.sourceKey
  | .fee => "fee:" ++ k.sourceKey

end OwnerKey

instance : Std.TransCmp OwnerKey.order :=
  inferInstanceAs (Std.TransCmp (compareLex (compareOn OwnerKey.bucket)
    (compareOn OwnerKey.sourceKey)))

theorem OwnerKey.eq_of_order_eq {a b : OwnerKey} (h : a.order b = .eq) : a = b := by
  obtain ⟨hbucket, hsource⟩ := Ordering.then_eq_eq.mp h
  obtain ⟨bucket, source⟩ := a
  obtain ⟨bucket', source'⟩ := b
  rw [OwnerKey.mk.injEq]
  exact ⟨Bucket.eq_of_order_eq hbucket, Std.LawfulEqCmp.eq_of_compare hsource⟩

theorem OwnerKey.ne_of_order_ne_eq {a b : OwnerKey} (h : a.order b ≠ .eq) : a ≠ b := by
  rintro rfl
  exact h Std.ReflCmp.compare_self

/-! ## Owner maps -/

/-- Values of owners. -/
abbrev OwnerMap (α : Type) := List (OwnerKey × α)

/-- Changes the value of an owner; `change` sees what was stored before. -/
def OwnerMap.update {α : Type} (key : OwnerKey) (change : Option α → α) :
    OwnerMap α → OwnerMap α
  | [] => [(key, change none)]
  | (k, v) :: rest =>
    match key.order k with
    | .lt => (key, change none) :: (k, v) :: rest
    | .eq => (k, change (some v)) :: rest
    | .gt => (k, v) :: OwnerMap.update key change rest

/-- The owners of a map come in their order, and each comes once. -/
def OwnerMap.Sorted {α : Type} (m : OwnerMap α) : Prop :=
  m.Pairwise fun a b => a.1.order b.1 = .lt

theorem OwnerMap.sorted_nil {α : Type} : OwnerMap.Sorted ([] : OwnerMap α) := List.Pairwise.nil

theorem OwnerMap.mem_update {α : Type} {key : OwnerKey} {change : Option α → α} {m : OwnerMap α}
    {e : OwnerKey × α} (h : e ∈ m.update key change) : e.1 = key ∨ ∃ e' ∈ m, e'.1 = e.1 := by
  induction m with
  | nil =>
    simp only [OwnerMap.update, List.mem_singleton] at h
    simp [h]
  | cons head rest ih =>
    obtain ⟨k, v⟩ := head
    simp only [OwnerMap.update] at h
    split at h
    · rcases List.mem_cons.mp h with rfl | h
      · exact .inl rfl
      · exact .inr ⟨e, h, rfl⟩
    · rcases List.mem_cons.mp h with rfl | h
      · exact .inr ⟨(k, v), List.mem_cons_self, rfl⟩
      · exact .inr ⟨e, List.mem_cons_of_mem _ h, rfl⟩
    · rcases List.mem_cons.mp h with rfl | h
      · exact .inr ⟨(k, v), List.mem_cons_self, rfl⟩
      · apply (ih h).imp_right
        rintro ⟨e', he', hkey⟩
        exact ⟨e', List.mem_cons_of_mem _ he', hkey⟩

/-- What stands before the first owner of a map stands before all of them. -/
theorem OwnerMap.Sorted.before {α : Type} {key : OwnerKey} {head : OwnerKey × α}
    {rest : OwnerMap α} (h : Sorted (head :: rest)) (hlt : key.order head.1 = .lt) :
    ∀ e ∈ head :: rest, key.order e.1 = .lt := by
  intro e he
  rcases List.mem_cons.mp he with rfl | he
  · exact hlt
  · exact Std.TransCmp.lt_trans hlt ((List.pairwise_cons.mp h).1 e he)

/-- Changing the value of an owner keeps the order. -/
theorem OwnerMap.Sorted.update {α : Type} {m : OwnerMap α} (h : m.Sorted) (key : OwnerKey)
    (change : Option α → α) : (m.update key change).Sorted := by
  induction m with
  | nil => exact List.pairwise_singleton _ _
  | cons head rest ih =>
    obtain ⟨k, v⟩ := head
    obtain ⟨hhead, hrest⟩ := List.pairwise_cons.mp h
    simp only [OwnerMap.update]
    split
    · rename_i hlt
      exact List.pairwise_cons.mpr ⟨h.before hlt, h⟩
    · exact List.pairwise_cons.mpr ⟨hhead, hrest⟩
    · rename_i hgt
      apply List.pairwise_cons.mpr
      constructor
      · intro e he
        rcases OwnerMap.mem_update he with hkey | ⟨e', he', hkey⟩
        · rw [hkey]
          exact Std.OrientedCmp.lt_of_gt hgt
        · rw [← hkey]
          exact hhead e' he'
      · exact ih hrest

/-! ## Owner books -/

/-- One value per owner, in the order of the owners. -/
@[ext]
structure OwnerBook (α : Type) where
  rows : OwnerMap α
  sorted : rows.Sorted
deriving DecidableEq, Repr

namespace OwnerBook

variable {α : Type}

/-- The book without owners. -/
def empty : OwnerBook α := ⟨[], .nil⟩

/-- The value of an owner. -/
def find? (key : OwnerKey) (b : OwnerBook α) : Option α := b.rows.lookup key

/-- Changes the value of an owner; `change` sees what was stored before. -/
def update (key : OwnerKey) (change : Option α → α) (b : OwnerBook α) : OwnerBook α :=
  ⟨b.rows.update key change, b.sorted.update key change⟩

@[simp] theorem rows_update (key : OwnerKey) (change : Option α → α) (b : OwnerBook α) :
    (b.update key change).rows = b.rows.update key change := rfl

@[simp] theorem find?_empty (key : OwnerKey) : (empty : OwnerBook α).find? key = none := rfl

end OwnerBook

end WalletScan
