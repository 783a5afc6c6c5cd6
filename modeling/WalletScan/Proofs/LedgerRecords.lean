import Mathlib.Data.List.TakeWhile
import Mathlib.Data.Set.Function
import WalletScan.Ledger.Rows
import WalletScan.Proofs.JoinedTexts
import WalletScan.Proofs.Surroundings

/-!
# The records of a ledger of either kind

A ledger in memory finds records by their identifiers, a ledger in a database by their columns.  As
long as SHA-256 keeps the identifiers apart, the two do the same to the list of their records.

* `UnscannedRecord.text_injective` — the text under an identifier tells height and transaction.
* `saving_records` — what a row of saved records makes of them.
* `perform_records` — what an operation does to the records, whichever kind of ledger it is.
* `replay_records` — what the exchanges of a run do to them.
-/

set_option autoImplicit false

namespace WalletScan

/-! ## Identifiers -/

namespace UnscannedRecord

/-- The text that the identifier of a record digests. -/
def text (height : UInt64) (txid : String) : String := toString height.toNat ++ "_" ++ txid

theorem text_toList (height : UInt64) (txid : String) :
    (text height txid).toList = (toString height.toNat).toList ++ '_' :: txid.toList := by
  unfold text
  rw [String.toList_append, String.toList_append, List.append_assoc]
  rfl

theorem text_injective {height height' : UInt64} {txid txid' : String}
    (h : text height txid = text height' txid') : height = height' ∧ txid = txid' := by
  have hlists := congrArg String.toList h
  rw [text_toList, text_toList] at hlists
  obtain ⟨hheights, htxids⟩ := append_cons_inj_left (underscore_not_mem_toString _)
    (underscore_not_mem_toString _) hlists
  exact ⟨UInt64.toNat_inj.mp (toString_nat_inj hheights), String.toList_inj.mp htxids⟩

end UnscannedRecord

/-- Records that carry computed identifiers, and whose texts SHA-256 keeps apart. -/
structure Distinct (records : List UnscannedRecord) : Prop where
  computed : ∀ r ∈ records, r.id = UnscannedRecord.idOf r.height r.txid
  apart : Set.InjOn Sha256.hexOfText {t | ∃ r ∈ records, t = UnscannedRecord.text r.height r.txid}

theorem Distinct.id_eq_iff {records : List UnscannedRecord} (h : Distinct records)
    {r r' : UnscannedRecord} (hr : r ∈ records) (hr' : r' ∈ records) :
    r.id = r'.id ↔ r.height = r'.height ∧ r.txid = r'.txid := by
  rw [h.computed r hr, h.computed r' hr']
  constructor
  · intro hid
    exact UnscannedRecord.text_injective (h.apart ⟨r, hr, rfl⟩ ⟨r', hr', rfl⟩ hid)
  · rintro ⟨hheight, htxid⟩
    rw [hheight, htxid]

/-! ## Operations on lists of records -/

/-- What an operation makes of the records of a ledger. -/
def LedgerOp.onRecords : LedgerOp → List UnscannedRecord → List UnscannedRecord
  | .saveUnscanned r, records => r :: records.filter fun r' => r'.id != r.id
  | .deleteUnscanned height, records => records.filter fun r => r.height != height
  | .deleteUnscannedRecord height txid, records =>
    records.filter fun r => !(r.height == height && r.txid == txid)
  | .deleteUnscannedByReason lead, records => records.filter fun r => !beginsWith lead r.reason
  | _, records => records

/-- An operation saves and deletes records of a list only, and purges by a text without NUL. -/
def LedgerOp.Among (records : List UnscannedRecord) : LedgerOp → Prop
  | .saveUnscanned r => r ∈ records
  | .deleteUnscannedRecord height txid => ∃ r ∈ records, r.height = height ∧ r.txid = txid
  | .deleteUnscannedByReason lead => '\x00' ∉ lead.toList
  | _ => True

section

variable {all records : List UnscannedRecord} {op : LedgerOp}

theorem onRecords_subset (hop : op.Among all) (h : records ⊆ all) :
    op.onRecords records ⊆ all := by
  cases op
  case saveUnscanned r =>
    intro r' hr'
    rcases List.mem_cons.mp hr' with rfl | hold
    · exact hop
    · exact h (List.mem_filter.mp hold).1
  case deleteUnscanned height => exact fun r hr => h (List.mem_filter.mp hr).1
  case deleteUnscannedRecord height txid => exact fun r hr => h (List.mem_filter.mp hr).1
  case deleteUnscannedByReason lead => exact fun r hr => h (List.mem_filter.mp hr).1
  all_goals exact h

theorem onRecords_nodup (op : LedgerOp) (h : (records.map (·.id)).Nodup) :
    ((op.onRecords records).map (·.id)).Nodup := by
  have hfilter : ∀ test : UnscannedRecord → Bool, ((records.filter test).map (·.id)).Nodup :=
    fun test => h.sublist (List.filter_sublist.map _)
  cases op
  case saveUnscanned r =>
    refine List.nodup_cons.mpr ⟨fun hmem => ?_, hfilter _⟩
    obtain ⟨r', hr', hid⟩ := List.mem_map.mp hmem
    have hne : r'.id ≠ r.id := by simpa using (List.mem_filter.mp hr').2
    exact hne hid
  case deleteUnscanned height => exact hfilter _
  case deleteUnscannedRecord height txid => exact hfilter _
  case deleteUnscannedByReason lead => exact hfilter _
  all_goals exact h

end

/-! ## The two kinds of ledgers -/

/-- The records that a ledger holds. -/
def Ledger.records : Ledger → List UnscannedRecord
  | .memory l => l.unscanned.values
  | .rows l => l.unscanned.map RecordRow.record

/-- A ledger in memory keeps its records under their identifiers. -/
def Ledger.Keyed : Ledger → Prop
  | .memory l => ∀ entry ∈ l.unscanned.entries, entry.1 = entry.2.id
  | .rows _ => True

/-- A ledger holds records under their computed identifiers, and one under each. -/
structure Ledger.WellKept (l : Ledger) : Prop where
  keyed : l.Keyed
  nodup : (l.records.map (·.id)).Nodup
  computed : ∀ r ∈ l.records, r.id = UnscannedRecord.idOf r.height r.txid

theorem map_filter_of_eq {α β : Type} {f : α → β} {p : α → Bool} {q : β → Bool} {xs : List α}
    (h : ∀ x ∈ xs, p x = q (f x)) : (xs.filter p).map f = (xs.map f).filter q := by
  rw [List.filter_map]
  exact congrArg _ (List.filter_congr h)

theorem record_ofRecord (r : UnscannedRecord) : (RecordRow.ofRecord r).record = r := by
  cases r
  simp [RecordRow.ofRecord, RecordRow.record]

/-- A saved record takes the place of the one with its identifier. -/
theorem perform_save {l : Ledger} (hkeyed : l.Keyed) (r : UnscannedRecord) :
    (l.perform (.saveUnscanned r)).2.records =
      r :: l.records.filter fun r' => r'.id != r.id := by
  cases l with
  | memory l =>
    refine congrArg (r :: ·) (map_filter_of_eq fun entry hentry => ?_)
    rw [Bool.eq_iff_iff]
    simp [hkeyed entry hentry]
  | rows l =>
    show (RecordRow.ofRecord r).record :: _ = _
    rw [record_ofRecord]
    exact congrArg (r :: ·) (map_filter_of_eq fun _ _ => rfl)

theorem perform_keyed {l : Ledger} (hkeyed : l.Keyed) (op : LedgerOp) : (l.perform op).2.Keyed := by
  cases l with
  | memory l =>
    have hkept : ∀ {p : String × UnscannedRecord → Bool}, ∀ entry ∈ l.unscanned.entries.filter p,
        entry.1 = entry.2.id := fun entry hentry => hkeyed entry (List.mem_filter.mp hentry).1
    cases op
    case saveUnscanned r =>
      intro entry hentry
      rcases List.mem_cons.mp hentry with rfl | hold
      · rfl
      · exact hkept entry hold
    case deleteUnscanned height => exact hkept
    case deleteUnscannedByReason lead => exact hkept
    case deleteUnscannedRecord height txid => exact hkept
    all_goals exact hkeyed
  | rows l => trivial

/-- Only saving brings records in. -/
theorem perform_sublist {op : LedgerOp} (hop : ∀ r, op ≠ .saveUnscanned r) (l : Ledger) :
    (l.perform op).2.records.Sublist l.records := by
  cases l <;> cases op
  case memory.saveUnscanned r => exact absurd rfl (hop r)
  case rows.saveUnscanned r => exact absurd rfl (hop r)
  all_goals first | exact .refl _ | exact List.filter_sublist.map _

/-- Every ledger is well kept into which only records with computed identifiers are saved. -/
theorem Ledger.WellKept.perform {l : Ledger} (h : l.WellKept) {op : LedgerOp}
    (hop : ∀ r, op = .saveUnscanned r → r.id = UnscannedRecord.idOf r.height r.txid) :
    (l.perform op).2.WellKept := by
  have hkeyed := perform_keyed h.keyed op
  by_cases hsave : ∃ r, op = .saveUnscanned r
  · obtain ⟨r, rfl⟩ := hsave
    have hrecords := perform_save h.keyed r
    refine ⟨hkeyed, ?_, ?_⟩
    · rw [hrecords]
      exact onRecords_nodup (.saveUnscanned r) h.nodup
    · rw [hrecords, List.forall_mem_cons]
      exact ⟨hop r rfl, fun r' hr' => h.computed r' (List.mem_filter.mp hr').1⟩
  · have hsublist := perform_sublist (fun r heq => hsave ⟨r, heq⟩) l
    refine ⟨hkeyed, h.nodup.sublist (hsublist.map _), fun r hr => ?_⟩
    exact h.computed r (hsublist.subset hr)

theorem empty_wellKept : (Ledger.memory .empty).WellKept :=
  ⟨fun _ h => absurd h List.not_mem_nil, .nil, fun _ h => absurd h List.not_mem_nil⟩

/-- A ledger with some more records. -/
def Ledger.saving (records : List UnscannedRecord) (l : Ledger) : Ledger :=
  records.foldl (fun l r => (l.perform (.saveUnscanned r)).2) l

theorem Ledger.WellKept.saving {l : Ledger} (h : l.WellKept) {records : List UnscannedRecord}
    (hrecords : ∀ r ∈ records, r.id = UnscannedRecord.idOf r.height r.txid) :
    (l.saving records).WellKept := by
  induction records generalizing l with
  | nil => exact h
  | cons r rest ih =>
    rw [List.forall_mem_cons] at hrecords
    refine ih (h.perform ?_) hrecords.2
    rintro _ ⟨⟩
    exact hrecords.1

section

variable {l : Ledger} {saved : List UnscannedRecord}

theorem Ledger.Keyed.saving (hkeyed : l.Keyed) : (l.saving saved).Keyed := by
  induction saved generalizing l with
  | nil => exact hkeyed
  | cons r rest ih => exact ih (perform_keyed hkeyed (.saveUnscanned r))

/-- Records with identifiers of their own are added once each, in place of those that stood under
these. -/
theorem saving_records (hkeyed : l.Keyed) (hnodup : (saved.map (·.id)).Nodup) :
    (l.saving saved).records.Perm
      (saved ++ l.records.filter fun x => decide (x.id ∉ saved.map (·.id))) := by
  induction saved generalizing l with
  | nil => simp [Ledger.saving]
  | cons r rest ih =>
    rw [List.map_cons, List.nodup_cons] at hnodup
    have hstep := ih (perform_keyed hkeyed (.saveUnscanned r)) hnodup.2
    rw [perform_save hkeyed, List.filter_cons_of_pos (by simpa using hnodup.1),
      List.filter_filter] at hstep
    apply hstep.trans
    rw [List.cons_append]
    apply List.perm_middle.trans
    apply List.Perm.cons
    apply List.Perm.append_left
    apply List.Perm.of_eq
    apply List.filter_congr
    intro x hx
    rw [Bool.eq_iff_iff]
    simp only [Bool.and_eq_true, decide_eq_true_eq, bne_iff_ne, ne_eq, List.map_cons,
      List.mem_cons, not_or]
    exact And.comm

end

section

variable {all : List UnscannedRecord}

theorem memory_records (hall : Distinct all) {l : MemoryLedger} (hkeyed : (Ledger.memory l).Keyed)
    (hl : (Ledger.memory l).records ⊆ all) {op : LedgerOp} (hop : op.Among all) :
    (Ledger.memory (l.perform op).2).records = op.onRecords (Ledger.memory l).records := by
  cases op
  case saveUnscanned r => exact perform_save hkeyed r
  case deleteUnscanned height => exact map_filter_of_eq fun _ _ => rfl
  case deleteUnscannedByReason lead => exact map_filter_of_eq fun _ _ => rfl
  case deleteUnscannedRecord height txid =>
    obtain ⟨r, hr, rfl, rfl⟩ := hop
    refine map_filter_of_eq fun entry hentry => ?_
    have hmem : entry.2 ∈ all := hl (List.mem_map_of_mem hentry)
    have hsame : entry.1 = UnscannedRecord.idOf r.height r.txid ↔
        entry.2.height = r.height ∧ entry.2.txid = r.txid := by
      rw [hkeyed entry hentry, ← hall.computed r hr]
      exact hall.id_eq_iff hmem hr
    rw [Bool.eq_iff_iff]
    simp [hsame]
  all_goals rfl

theorem toInt64_eq_iff (row : RecordRow) (height : UInt64) :
    row.height = height.toInt64 ↔ row.record.height = height := by
  constructor
  · intro h
    show row.height.toUInt64 = height
    rw [h, UInt64.toUInt64_toInt64]
  · rintro rfl
    exact (Int64.toInt64_toUInt64 _).symm

/-- Without a NUL in the text, a database compares the beginning of a reason as it is. -/
theorem reasonBegins_eq {lead : String} (hlead : '\x00' ∉ lead.toList) (reason : String) :
    RowLedger.reasonBegins lead reason = beginsWith lead reason := by
  have hlead' : ∀ c ∈ lead.toList, decide (c ≠ '\x00') = true := by
    intro c hc
    rw [decide_eq_true_iff]
    rintro rfl
    exact hlead hc
  have hwhole : RowLedger.untilNul lead = lead.toList := List.takeWhile_eq_self_iff.mpr hlead'
  unfold RowLedger.reasonBegins beginsWith
  rw [hwhole, Bool.eq_iff_iff, beq_iff_eq, List.isPrefixOf_iff_prefix]
  unfold RowLedger.untilNul
  constructor
  · intro heq
    rw [← heq]
    exact (List.take_prefix _ _).trans (List.takeWhile_prefix _)
  · rintro ⟨rest, hrest⟩
    rw [← hrest, List.takeWhile_append_of_pos hlead', List.take_left]

theorem rows_records {l : RowLedger} {op : LedgerOp} (hop : op.Among all) :
    (Ledger.rows (l.perform op).2).records = op.onRecords (Ledger.rows l).records := by
  cases op
  case saveUnscanned r => exact perform_save (l := .rows l) trivial r
  case deleteUnscanned height =>
    refine map_filter_of_eq fun row _ => ?_
    simp [bne, toInt64_eq_iff]
  case deleteUnscannedRecord height txid =>
    refine map_filter_of_eq fun row _ => ?_
    rw [Bool.eq_iff_iff]
    simp [toInt64_eq_iff, RecordRow.record]
  case deleteUnscannedByReason lead =>
    refine map_filter_of_eq fun row _ => ?_
    rw [reasonBegins_eq hop]
    rfl
  all_goals rfl

/-- **The two kinds of ledgers keep the same records.**  What an operation does to the records of a
ledger does not depend on its kind. -/
theorem perform_records (hall : Distinct all) {l : Ledger} (hkeyed : l.Keyed)
    (hl : l.records ⊆ all) {op : LedgerOp} (hop : op.Among all) :
    (l.perform op).2.records = op.onRecords l.records := by
  cases l with
  | memory l => exact memory_records hall hkeyed hl hop
  | rows l => exact rows_records hop

end

theorem perform_listUnscanned (l : Ledger) :
    ∃ listed, l.perform .listUnscanned = (.ok listed, l) ∧ listed.Perm l.records := by
  cases l with
  | memory l => exact ⟨_, rfl, List.mergeSort_perm _ _⟩
  | rows l => exact ⟨_, rfl, (List.mergeSort_perm _ _).map _⟩

theorem length_sub_filter_not {α : Type} (test : α → Bool) (xs : List α) :
    xs.length - (xs.filter fun x => !test x).length = (xs.filter test).length := by
  have hsum := List.length_eq_length_filter_add (l := xs) test
  omega

/-- A purge answers how many records have a reason that begins with the text. -/
theorem perform_purge {lead : String} (hlead : '\x00' ∉ lead.toList) (l : Ledger) :
    (l.perform (.deleteUnscannedByReason lead)).1 =
      .ok (l.records.filter fun r => beginsWith lead r.reason).length := by
  cases l with
  | memory l =>
    refine congrArg Except.ok ?_
    show l.unscanned.entries.length -
        (l.unscanned.entries.filter fun e => !beginsWith lead e.2.reason).length =
      (l.unscanned.values.filter fun r => beginsWith lead r.reason).length
    rw [length_sub_filter_not fun e : String × UnscannedRecord => beginsWith lead e.2.reason,
      List.filter_map, List.length_map]
    rfl
  | rows l =>
    refine congrArg Except.ok ?_
    show l.unscanned.length -
        (l.unscanned.filter fun row => !RowLedger.reasonBegins lead row.reason).length =
      ((l.unscanned.map RecordRow.record).filter fun r => beginsWith lead r.reason).length
    rw [length_sub_filter_not fun row : RecordRow => RowLedger.reasonBegins lead row.reason,
      List.filter_map, List.length_map]
    simp only [reasonBegins_eq hlead]
    rfl

/-! ## The records after some exchanges -/

/-- What an exchange makes of the records of a ledger. -/
def Exchange.onRecords : Exchange → List UnscannedRecord → List UnscannedRecord
  | ⟨.ledger op, _⟩, records => op.onRecords records
  | _, records => records

/-- What the operations among some exchanges make of the records of a ledger. -/
def recordsAfter (records : List UnscannedRecord) (tr : List Exchange) : List UnscannedRecord :=
  tr.foldl (fun records x => x.onRecords records) records

@[simp] theorem recordsAfter_nil (records : List UnscannedRecord) :
    recordsAfter records [] = records := rfl

@[simp] theorem recordsAfter_cons (records : List UnscannedRecord) (x : Exchange)
    (tr : List Exchange) :
    recordsAfter records (x :: tr) = recordsAfter (x.onRecords records) tr := rfl

@[simp] theorem recordsAfter_append (records : List UnscannedRecord) (tr tr' : List Exchange) :
    recordsAfter records (tr ++ tr') = recordsAfter (recordsAfter records tr) tr' :=
  List.foldl_append

/-- Operations save and delete records of a list only. -/
def OperatesAmong (all : List UnscannedRecord) (tr : List Exchange) : Prop :=
  ∀ op answer, (⟨.ledger op, answer⟩ : Exchange) ∈ tr → op.Among all

section

variable {all records : List UnscannedRecord} {tr : List Exchange}

theorem operatesAmong_append {tr' : List Exchange} :
    OperatesAmong all (tr ++ tr') ↔ OperatesAmong all tr ∧ OperatesAmong all tr' := by
  refine ⟨fun h => ⟨fun op answer hx => ?_, fun op answer hx => ?_⟩, ?_⟩
  · exact h op answer (List.mem_append_left _ hx)
  · exact h op answer (List.mem_append_right _ hx)
  · rintro ⟨htr, htr'⟩ op answer hx
    exact (List.mem_append.mp hx).elim (htr op answer) (htr' op answer)

theorem recordsAfter_subset (htr : OperatesAmong all tr) (h : records ⊆ all) :
    recordsAfter records tr ⊆ all := by
  induction tr generalizing records with
  | nil => exact h
  | cons x rest ih =>
    have hrest : OperatesAmong all rest := fun op answer hx => htr op answer (.tail _ hx)
    refine ih hrest ?_
    obtain ⟨q, a⟩ := x
    cases q with
    | ledger op => exact onRecords_subset (htr op a List.mem_cons_self) h
    | _ => exact h

theorem recordsAfter_nodup (h : (records.map (·.id)).Nodup) :
    ((recordsAfter records tr).map (·.id)).Nodup := by
  induction tr generalizing records with
  | nil => exact h
  | cons x rest ih =>
    refine ih ?_
    obtain ⟨q, a⟩ := x
    cases q with
    | ledger op => exact onRecords_nodup op h
    | _ => exact h

theorem replay_keyed {l : Ledger} (hkeyed : l.Keyed) (tr : List Exchange) :
    (replay Ledger.perform l tr).Keyed := by
  refine replay_frame (K := fun _ => True) (R := fun l l' => l.Keyed → l'.Keyed)
    (fun _ h => h) (fun h h' hl => h' (h hl)) (fun op l _ hl => perform_keyed hl op)
    (fun _ _ _ => trivial) l hkeyed

/-- What the exchanges of a run do to the records, whichever kind of ledger it is. -/
theorem replay_records (hall : Distinct all) {l : Ledger} (hkeyed : l.Keyed)
    (hl : l.records ⊆ all) (htr : OperatesAmong all tr) :
    (replay Ledger.perform l tr).records = recordsAfter l.records tr := by
  induction tr generalizing l with
  | nil => rfl
  | cons x rest ih =>
    have hrest : OperatesAmong all rest := fun op answer hx => htr op answer (.tail _ hx)
    obtain ⟨q, a⟩ := x
    cases q with
    | ledger op =>
      have hop : op.Among all := htr op a List.mem_cons_self
      have hrecords := perform_records hall hkeyed hl hop
      have hsubset : (l.perform op).2.records ⊆ all := by
        rw [hrecords]
        exact onRecords_subset hop hl
      have hlater := ih (perform_keyed hkeyed op) hsubset hrest
      rw [hrecords] at hlater
      exact hlater
    | _ => exact ih hkeyed hl hrest

end

/-! ## The position of a ledger -/

/-- A ledger has the cursor and the cached blocks of another. -/
def Ledger.SamePosition : Ledger → Ledger → Prop
  | .memory l, .memory l' => WalletScan.SamePosition l l'
  | .rows l, .rows l' => l'.cursor = l.cursor ∧ l'.blocks = l.blocks
  | _, _ => False

theorem Ledger.SamePosition.refl (l : Ledger) : l.SamePosition l := by
  cases l <;> exact ⟨rfl, rfl⟩

theorem Ledger.SamePosition.trans {l l' l'' : Ledger} (h : l.SamePosition l')
    (h' : l'.SamePosition l'') : l.SamePosition l'' := by
  cases l <;> cases l' <;> cases l'' <;>
    first
    | exact ⟨h'.1.trans h.1, h'.2.trans h.2⟩
    | exact h.elim
    | exact h'.elim

theorem Ledger.perform_keepsPosition {op : LedgerOp} (h : op.KeepsPosition) (l : Ledger) :
    l.SamePosition (l.perform op).2 := by
  cases l with
  | memory l => exact WalletScan.perform_keepsPosition h l
  | rows l => cases op <;> first | exact ⟨rfl, rfl⟩ | exact h.elim

/-- What follows an advance leaves the cursor and the cached blocks alone. -/
theorem replay_isDrain {tr : List Exchange} (h : ∀ x ∈ tr, x.IsDrain) (l : Ledger) :
    l.SamePosition (replay Ledger.perform l tr) :=
  replay_frame (R := Ledger.SamePosition) Ledger.SamePosition.refl Ledger.SamePosition.trans
    (fun _ l hop => Ledger.perform_keepsPosition hop l) (fun _ _ hx => h _ hx) l

end WalletScan
