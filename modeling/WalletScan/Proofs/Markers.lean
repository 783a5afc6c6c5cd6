import WalletScan.Proofs.KeptRecords
import WalletScan.Proofs.LedgerRecords

/-!
# Markers of what has to be tried again

A record marks its transaction, or a whole block, at a height.  Saving a record again replaces it,
so a marker is lost only by a deletion that names it.

* `Marked.after` — a marker stays as long as no deletion names it.
* `Recorded.marked` — what fails in a batch is marked when the batch ends.
* `runBatch_savesComputed` — a batch saves records under their computed identifiers, also if it is
  cut short by the ledger.
-/

set_option autoImplicit false

namespace WalletScan

open Script

/-! ## Markers -/

/-- A transaction, or a whole block, is marked at a height: a record is there under the identifier
of both. -/
def Marked (height : UInt64) (txid : String) (records : List UnscannedRecord) : Prop :=
  ∃ r ∈ records, r.id = UnscannedRecord.idOf height txid ∧ r.height = height ∧ r.txid = txid

namespace Exchange

/-- An exchange does not delete the record of a transaction at a height. -/
def Spares (height : UInt64) (txid : String) : Exchange → Prop
  | ⟨.ledger (.deleteUnscanned h), _⟩ => h ≠ height
  | ⟨.ledger (.deleteUnscannedRecord h t), _⟩ => ¬ (h = height ∧ t = txid)
  | ⟨.ledger (.deleteUnscannedByReason _), _⟩ => False
  | _ => True

/-- A record is only saved under its computed identifier. -/
def SavesComputed : Exchange → Prop
  | ⟨.ledger (.saveUnscanned r), _⟩ => r.id = UnscannedRecord.idOf r.height r.txid
  | _ => True

theorem spares_of_not_deletesRecords {height : UInt64} {txid : String} {x : Exchange}
    (h : ¬ x.DeletesRecords) : x.Spares height txid := by
  obtain ⟨q, a⟩ := x
  rcases q with _ | op | _ | _ | _ | _
  case ledger => cases op <;> first | trivial | exact absurd trivial h
  all_goals trivial

theorem IsBlockRead.not_deletesRecords {x : Exchange} (h : x.IsBlockRead) : ¬ x.DeletesRecords := by
  obtain ⟨q, a⟩ := x
  rcases q with _ | op | _ | _ | _ | _
  case ledger => cases op <;> first | exact id | exact h.elim
  all_goals exact id

end Exchange

section

variable {all records : List UnscannedRecord} {height : UInt64} {txid : String}
  {tr : List Exchange}

/-- A marker stays, maybe replaced, unless a deletion names it. -/
theorem Marked.onRecords (hall : Distinct all) (hrecords : records ⊆ all) {x : Exchange}
    (hx : ∀ op answer, x = ⟨.ledger op, answer⟩ → op.Among all) (hspares : x.Spares height txid)
    (h : Marked height txid records) : Marked height txid (x.onRecords records) := by
  obtain ⟨r, hr, hid, rfl, rfl⟩ := h
  obtain ⟨q, a⟩ := x
  rcases q with _ | op | _ | _ | _ | _
  case ledger =>
    cases op
    case saveUnscanned s =>
      by_cases hsame : r.id = s.id
      · have hs : s ∈ all := hx _ a rfl
        obtain ⟨hheight, htxid⟩ := (hall.id_eq_iff (hrecords hr) hs).mp hsame
        exact ⟨s, List.mem_cons_self, hsame ▸ hid, hheight.symm, htxid.symm⟩
      · refine ⟨r, List.mem_cons_of_mem _ (List.mem_filter.mpr ⟨hr, ?_⟩), hid, rfl, rfl⟩
        simpa using hsame
    case deleteUnscanned cleared =>
      refine ⟨r, List.mem_filter.mpr ⟨hr, ?_⟩, hid, rfl, rfl⟩
      simpa using Ne.symm hspares
    case deleteUnscannedRecord dropped gone =>
      refine ⟨r, List.mem_filter.mpr ⟨hr, ?_⟩, hid, rfl, rfl⟩
      have hnot : ¬ (r.height = dropped ∧ r.txid = gone) := fun heq =>
        hspares ⟨heq.1.symm, heq.2.symm⟩
      rw [Bool.not_eq_true', Bool.and_eq_false_iff, beq_eq_false_iff_ne, beq_eq_false_iff_ne]
      exact not_and_or.mp hnot
    case deleteUnscannedByReason lead => exact hspares.elim
    all_goals exact ⟨r, hr, hid, rfl, rfl⟩
  all_goals exact ⟨r, hr, hid, rfl, rfl⟩

theorem Marked.after (hall : Distinct all) (hrecords : records ⊆ all) (htr : OperatesAmong all tr)
    (hspares : ∀ x ∈ tr, x.Spares height txid) (h : Marked height txid records) :
    Marked height txid (recordsAfter records tr) := by
  induction tr generalizing records with
  | nil => exact h
  | cons x rest ih =>
    rw [List.forall_mem_cons] at hspares
    have hx : ∀ op answer, x = ⟨.ledger op, answer⟩ → op.Among all := by
      rintro op answer rfl
      exact htr op answer List.mem_cons_self
    have hrest : OperatesAmong all rest := fun op answer hmem => htr op answer (.tail _ hmem)
    refine ih ?_ hrest hspares.2 (h.onRecords hall hrecords hx hspares.1)
    have hsingle : OperatesAmong all [x] := fun op answer hmem =>
      hx op answer (List.mem_singleton.mp hmem).symm
    exact recordsAfter_subset hsingle hrecords

/-- A transaction that failed in a batch is marked when the batch ends. -/
theorem Recorded.marked {failed : List String} (hall : Distinct all) (hrecords : records ⊆ all)
    (hrun : Recorded height failed tr) (htr : OperatesAmong all tr) (h : txid ∈ failed) :
    Marked height txid (recordsAfter records tr) := by
  rw [← hrun.failed_eq] at h
  obtain ⟨s, hs, rfl⟩ := List.mem_map.mp h
  obtain ⟨past, later, rfl⟩ := List.mem_iff_append.mp (mem_saved.mp hs)
  have hown : s = .of height s.txid s.reason := hrun.own_id s hs
  have hheight : s.height = height := congrArg UnscannedRecord.height hown
  have hid : s.id = UnscannedRecord.idOf height s.txid := congrArg UnscannedRecord.id hown
  rw [List.append_cons] at htr ⊢
  obtain ⟨hsave, hlater⟩ := operatesAmong_append.mp htr
  have hpast : OperatesAmong all past := (operatesAmong_append.mp hsave).1
  have hsaved : Marked height s.txid (recordsAfter (recordsAfter records past)
      [⟨.ledger (.saveUnscanned s), .ok ()⟩]) := ⟨s, List.mem_cons_self, hid, hheight, rfl⟩
  rw [recordsAfter_append, recordsAfter_append]
  refine hsaved.after hall ?_ hlater fun x hx => ?_
  · exact recordsAfter_subset (operatesAmong_append.mp hsave).2
      (recordsAfter_subset hpast hrecords)
  · exact Exchange.spares_of_not_deletesRecords (hrun.kinds x (by simp [hx])).not_deletesRecords

end

/-! ## Saved records -/

/-- The law that records are only saved under their computed identifiers. -/
abbrev savesComputed : TraceLaw := .each Exchange.SavesComputed

theorem Exchange.IsLookup.savesComputed {x : Exchange} (h : x.IsLookup) : x.SavesComputed := by
  obtain ⟨q, a⟩ := x
  cases q <;> trivial

theorem Exchange.IsDelivery.savesComputed {x : Exchange} (h : x.IsDelivery) : x.SavesComputed := by
  obtain ⟨q, a⟩ := x
  cases q <;> trivial

theorem Exchange.IsBlockRead.savesComputed {x : Exchange} (h : x.IsBlockRead) :
    x.SavesComputed := by
  obtain ⟨q, a⟩ := x
  rcases q with _ | op | _ | _ | _ | _
  case ledger => cases op <;> trivial
  all_goals trivial

theorem store_savesComputed {op : LedgerOp}
    (h : ∀ answer, Exchange.SavesComputed ⟨.ledger op, answer⟩) :
    (Script.store op).Obeys savesComputed :=
  Ensures.mono (Quiet.store h).orderly.only fun _ _ hx => hx

theorem settleAll_savesComputed (sinks : Nat) (height : UInt64) :
    ∀ results : List Extraction, (settleAll sinks height results).Obeys savesComputed
  | [] => Obeys.done _
  | e :: rest => by
    have hrest := settleAll_savesComputed sinks height rest
    unfold settleAll
    refine Obeys.bind (Ensures.mono (settle_yields sinks e) ?_) ?_
    · rintro tr _ ⟨answer, -, hdel, -⟩ x hx
      exact (hdel x hx).savesComputed
    · rintro ⟨delivered, _ | reason⟩
      · refine Obeys.bind hrest ?_
        rintro (cause | ⟨others, failed⟩) <;> exact Obeys.done _
      · refine Obeys.bind (Obeys.query fun answer x hx => ?_) ?_
        · rw [List.mem_singleton.mp hx]
          rfl
        · rintro (cause | ⟨⟩)
          · exact Obeys.done _
          · refine Obeys.bind hrest ?_
            rintro (cause | ⟨others, failed⟩) <;> exact Obeys.done _

theorem runBatch_savesComputed (e : Engine) (b : Batch) :
    (e.runBatch b).Obeys savesComputed := by
  have hbatch : (extractBatch e.classifier e.sinks b).Obeys savesComputed := by
    unfold extractBatch
    split
    · exact Obeys.done _
    · have hlookups := extractAll_yields e.classifier b b.txids
      refine Obeys.bind (Ensures.mono hlookups ?_) fun results => ?_
      · rintro tr _ ⟨answer, -, hlook, -⟩ x hx
        exact (hlook x hx).savesComputed
      · refine Obeys.bind (settleAll_savesComputed e.sinks b.height _) ?_
        rintro (cause | ⟨delivered, _ | ⟨txid, rest⟩⟩) <;> exact Obeys.done _
  unfold Engine.runBatch
  refine Obeys.bind hbatch ?_
  rintro ((⟨height, failed, total⟩ | cause) | summary)
  · exact Obeys.done _
  · exact fun x hx => absurd hx List.not_mem_nil
  · exact Obeys.done _

end WalletScan
