import WalletScan.Proofs.Batches

/-!
# What the exchanges say about a record

The saves and deletions of a trace tell which record the ledger keeps under an identifier, without a
look at the ledger.

* `keptFrom_of_no_deletion` — without deletions it is the record saved last.
* `keptFrom_or_removed` — a record stays, maybe replaced, until a deletion names its height, its
  identifier or its reason.
-/

set_option autoImplicit false

namespace WalletScan

open Exchange (saved?)

namespace Exchange

/-- What becomes of the record under an identifier; an operation that fails changes nothing. -/
def keep (id : String) (kept : Option UnscannedRecord) : Exchange → Option UnscannedRecord
  | ⟨.ledger (.saveUnscanned r), .ok ()⟩ => if r.id = id then some r else kept
  | ⟨.ledger (.deleteUnscanned height), .ok _⟩ => kept.filter fun r => r.height != height
  | ⟨.ledger (.deleteUnscannedRecord height txid), .ok _⟩ =>
    if UnscannedRecord.idOf height txid = id then none else kept
  | ⟨.ledger (.deleteUnscannedByReason lead), .ok _⟩ =>
    kept.filter fun r => !beginsWith lead r.reason
  | _ => kept

/-- A deletion of records, by height, by transaction or by reason. -/
def DeletesRecords : Exchange → Prop
  | ⟨.ledger (.deleteUnscanned _), _⟩ => True
  | ⟨.ledger (.deleteUnscannedRecord _ _), _⟩ => True
  | ⟨.ledger (.deleteUnscannedByReason _), _⟩ => True
  | _ => False

/-- The ledger carried out a deletion that names a record. -/
def Removes (r : UnscannedRecord) : Exchange → Prop
  | ⟨.ledger (.deleteUnscanned height), .ok _⟩ => height = r.height
  | ⟨.ledger (.deleteUnscannedRecord height txid), .ok _⟩ =>
    UnscannedRecord.idOf height txid = r.id
  | ⟨.ledger (.deleteUnscannedByReason lead), .ok _⟩ => beginsWith lead r.reason = true
  | _ => False

theorem InBatch.not_deletesRecords {height : UInt64} {x : Exchange} (h : x.InBatch height) :
    ¬ x.DeletesRecords := by
  obtain ⟨q, a⟩ := x
  rcases q with _ | op | _ | _ | _ | _
  case ledger => cases op <;> simp_all [InBatch, IsLookup, IsDelivery, IsSaveAt, DeletesRecords]
  all_goals simp [DeletesRecords]

/-- An exchange that deletes nothing keeps the record that it saved, or the one from before. -/
theorem keep_of_not_deletesRecords {id : String} {kept : Option UnscannedRecord} {x : Exchange}
    (h : ¬ x.DeletesRecords) : x.keep id kept = (x.saved?.filter fun r => r.id == id).or kept := by
  obtain ⟨q, a⟩ := x
  rcases q with _ | op | _ | _ | _ | _
  case ledger =>
    cases op
    case saveUnscanned r =>
      rcases a with cause | ⟨⟩
      · rfl
      · by_cases hid : r.id = id <;> simp [keep, saved?, Option.filter, hid]
    all_goals simp_all [keep, saved?, DeletesRecords]
  all_goals rfl

/-- A record that an exchange does not keep was removed. -/
theorem keep_eq_none {id : String} {r : UnscannedRecord} {x : Exchange} (hid : r.id = id)
    (h : x.keep id (some r) = none) : x.Removes r := by
  obtain ⟨q, a⟩ := x
  rcases q with _ | op | _ | _ | _ | _
  case ledger =>
    rcases a with cause | a
    · simp [keep] at h
    · cases op
      case saveUnscanned r' =>
        by_cases hid' : r'.id = id <;> simp [keep, hid'] at h
      all_goals simp_all [keep, Removes, Option.filter]
  all_goals simp [keep] at h

/-- A record that an exchange keeps is the one that it saved or the one from before. -/
theorem keep_eq_some {id : String} {kept : Option UnscannedRecord} {r : UnscannedRecord}
    {x : Exchange} (h : x.keep id kept = some r) :
    (x.saved? = some r ∧ r.id = id) ∨ kept = some r := by
  obtain ⟨q, a⟩ := x
  rcases q with _ | op | _ | _ | _ | _
  case ledger =>
    rcases a with cause | a
    · exact .inr (by simpa [keep] using h)
    · cases op
      case saveUnscanned r' =>
        by_cases hid : r'.id = id
        · have heq : r' = r := by simpa [keep, hid] using h
          exact .inl ⟨by simp [saved?, heq], heq ▸ hid⟩
        · exact .inr (by simpa [keep, hid] using h)
      case deleteUnscanned height => exact .inr (Option.filter_eq_some_iff.mp h).1
      case deleteUnscannedByReason lead => exact .inr (Option.filter_eq_some_iff.mp h).1
      case deleteUnscannedRecord height txid =>
        by_cases hid : UnscannedRecord.idOf height txid = id
        · simp [keep, hid] at h
        · exact .inr (by simpa [keep, hid] using h)
      all_goals exact .inr h
  all_goals exact .inr h

/-- Without a record from before, an exchange keeps nothing but what it keeps in any case. -/
theorem keep_none (id : String) (kept : Option UnscannedRecord) (x : Exchange) :
    x.keep id none = none ∨ x.keep id none = x.keep id kept := by
  obtain ⟨q, a⟩ := x
  rcases q with _ | op | _ | _ | _ | _
  case ledger =>
    rcases a with cause | a
    · exact .inl (by simp [keep])
    · cases op
      case saveUnscanned r => by_cases hid : r.id = id <;> simp [keep, hid]
      all_goals simp [keep]
  all_goals exact .inl rfl

end Exchange

/-- The record under an identifier after some exchanges. -/
def keptFrom (id : String) (kept : Option UnscannedRecord) (tr : List Exchange) :
    Option UnscannedRecord := tr.foldl (fun kept x => x.keep id kept) kept

/-- The record under an identifier that was saved by some exchanges and is still there. -/
def kept (id : String) (tr : List Exchange) : Option UnscannedRecord := keptFrom id none tr

@[simp] theorem keptFrom_append (id : String) (k : Option UnscannedRecord)
    (tr tr' : List Exchange) : keptFrom id k (tr ++ tr') = keptFrom id (keptFrom id k tr) tr' :=
  List.foldl_append

@[simp] theorem keptFrom_cons (id : String) (k : Option UnscannedRecord) (x : Exchange)
    (tr : List Exchange) : keptFrom id k (x :: tr) = keptFrom id (x.keep id k) tr := rfl

@[simp] theorem keptFrom_nil (id : String) (k : Option UnscannedRecord) :
    keptFrom id k [] = k := rfl

/-- Without deletions, the record saved last is kept, or else the one from before. -/
theorem keptFrom_of_no_deletion (id : String) (k : Option UnscannedRecord) {tr : List Exchange}
    (h : ∀ x ∈ tr, ¬ x.DeletesRecords) :
    keptFrom id k tr = ((readOff saved? tr).reverse.find? fun r => r.id == id).or k := by
  induction tr generalizing k with
  | nil => rfl
  | cons x rest ih =>
    rw [List.forall_mem_cons] at h
    rw [keptFrom_cons, ih _ h.2, Exchange.keep_of_not_deletesRecords h.1]
    rw [readOff_cons]
    cases hsaved : x.saved? with
    | none => simp
    | some r =>
      rw [Option.toList_some, List.singleton_append, List.reverse_cons, List.find?_append,
        Option.or_assoc]
      congr 2
      cases hid : r.id == id <;> simp [Option.filter, hid]

theorem keptFrom_none (id : String) (k : Option UnscannedRecord) (tr : List Exchange) :
    kept id tr = none ∨ kept id tr = keptFrom id k tr := by
  suffices h : ∀ a b : Option UnscannedRecord, a = none ∨ a = b →
      keptFrom id a tr = none ∨ keptFrom id a tr = keptFrom id b tr from h none k (.inl rfl)
  induction tr with
  | nil => exact fun a b h => h
  | cons x rest ih =>
    rintro a b (rfl | rfl)
    · exact ih _ _ (Exchange.keep_none id b x)
    · exact .inr rfl

/-- What came before does not matter for a record that was saved since. -/
theorem kept_append_of_isSome {id : String} (past : List Exchange) {tr : List Exchange}
    (h : (kept id tr).isSome) : (kept id (past ++ tr)).isSome := by
  rcases keptFrom_none id (keptFrom id none past) tr with hnone | heq
  · simp [hnone] at h
  · unfold kept at h ⊢
    rw [keptFrom_append]
    rwa [← heq]

/-- A record that is kept was saved under its identifier. -/
theorem mem_saved_of_kept {id : String} {tr : List Exchange} {r : UnscannedRecord}
    (h : kept id tr = some r) : r ∈ readOff saved? tr ∧ r.id = id := by
  suffices hfrom : ∀ k, keptFrom id k tr = some r →
      (r ∈ readOff saved? tr ∧ r.id = id) ∨ k = some r by
    simpa using hfrom none h
  clear h
  induction tr with
  | nil => exact fun k h => .inr h
  | cons x rest ih =>
    intro k h
    rcases ih _ h with ⟨hmem, hid⟩ | hx
    · exact .inl ⟨(List.Sublist.filterMap _ (List.sublist_cons_self x rest)).mem hmem, hid⟩
    · rcases Exchange.keep_eq_some hx with ⟨hsaved, hid⟩ | hk
      · exact .inl ⟨mem_readOff.mpr ⟨x, List.mem_cons_self, hsaved⟩, hid⟩
      · exact .inr hk

/-- A record that is there stays there, maybe replaced by a later save, unless a deletion names it
or a replacement of it. -/
theorem keptFrom_or_removed {id : String} {r : UnscannedRecord} (hid : r.id = id)
    (tr : List Exchange) :
    (keptFrom id (some r) tr).isSome ∨
      ∃ r' x, x ∈ tr ∧ x.Removes r' ∧ r'.id = id ∧ (r' = r ∨ r' ∈ readOff saved? tr) := by
  induction tr generalizing r with
  | nil => exact .inl rfl
  | cons x rest ih =>
    rw [keptFrom_cons]
    cases hx : x.keep id (some r) with
    | none => exact .inr ⟨r, x, List.mem_cons_self, Exchange.keep_eq_none hid hx, hid, .inl rfl⟩
    | some r' =>
      have hr' : (x.saved? = some r' ∧ r'.id = id) ∨ r = r' := by
        simpa using Exchange.keep_eq_some hx
      have hid' : r'.id = id := hr'.elim (·.2) fun h => h ▸ hid
      refine (ih hid').imp_right ?_
      rintro ⟨r'', y, hy, hremoves, hid'', hfrom⟩
      refine ⟨r'', y, List.mem_cons_of_mem _ hy, hremoves, hid'', ?_⟩
      have htail : ∀ s, s ∈ readOff saved? rest → s ∈ readOff saved? (x :: rest) := fun s hs =>
        (List.Sublist.filterMap _ (List.sublist_cons_self x rest)).mem hs
      rcases hfrom with rfl | hsaved
      · rcases hr' with ⟨hsaved, -⟩ | rfl
        · exact .inr (mem_readOff.mpr ⟨x, List.mem_cons_self, hsaved⟩)
        · exact .inl rfl
      · exact .inr (htail _ hsaved)

end WalletScan
