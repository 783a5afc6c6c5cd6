import Mathlib.Algebra.GroupWithZero.Nat
import Mathlib.Data.Set.Function
import Mathlib.Tactic.Push
import WalletScan.Proofs.Batches
import WalletScan.Proofs.FaultyLedgers
import WalletScan.Proofs.LedgerRecords
import WalletScan.Proofs.OwnerMaps
import WalletScan.Rehearsal.World

/-!
# The accounts of a batch

A batch asks about its transactions one after the other; then it handles what came of each.  Its
exchanges fall into one part for every question and one for every result, and these parts say
everything that a batch does.

* `Inquiry`, `Handling` — the two parts; `Examined` and `Handling.Fits` say what may stand in them.
* `settleAll_handles` — results are handled one by one, up to a record that cannot be saved.
* `extractBatch_handles` — the same for a whole batch, whatever is answered.
* `batch_accounting` — over a ledger of either kind: the answer, the exchanges and the records.

Specification: section 8, batch accounting.
-/

set_option autoImplicit false

namespace WalletScan

open Script

/-! ## Questions -/

/-- The exchanges of a lookup, and what it answers. -/
inductive Searched (b : Batch) (txid : String) : List Exchange → Lookup → Prop
  /-- The mempool serves the transaction. -/
  | pending {tx : Transaction} (h : b.isMempool = true) :
      Searched b txid [⟨.chain (.mempoolTransaction txid), .ok tx⟩] (.found tx)
  /-- The mempool does not, and the answer is that of the committed transactions. -/
  | fallback {cause : ChainError} {answer : Lookup} (h : b.isMempool = true) :
      Searched b txid
        [⟨.chain (.mempoolTransaction txid), .error cause⟩, ⟨.chain (.transaction txid), answer⟩]
        answer
  | committed {answer : Lookup} (h : b.isMempool = false) :
      Searched b txid [⟨.chain (.transaction txid), answer⟩] answer

/-- The exchanges about the fee of a transaction, and what is known of it then. -/
inductive Charged (owners : Owners) (tx : Transaction) :
    List Exchange → Except ChainError (Option UInt64) → Prop
  /-- Nobody who is owned pays it. -/
  | free (hpayer : feePayer owners tx = none) : Charged owners tx [] (.ok none)
  | known {payer : FeePayer} {fee : UInt64} (hpayer : feePayer owners tx = some payer) :
      Charged owners tx [⟨.chain (.fee tx.feeKind tx.height), .ok fee⟩] (.ok (some fee))
  | unknown {payer : FeePayer} {cause : ChainError} (hpayer : feePayer owners tx = some payer) :
      Charged owners tx [⟨.chain (.fee tx.feeKind tx.height), .error cause⟩] (.error cause)

/-- The exchanges about a transaction, and what comes of them. -/
inductive Examined (c : Classifier) (b : Batch) (txid : String) :
    List Exchange → Extraction → Prop
  /-- The transaction cannot be looked up. -/
  | unfound {tr : List Exchange} {cause : ChainError} (h : Searched b txid tr (.failed cause)) :
      Examined c b txid tr ⟨txid, b.height, .error cause.message, none⟩
  /-- The worker that looks it up dies. -/
  | died {tr : List Exchange} {detail : String} (h : Searched b txid tr (.crashed detail)) :
      Examined c b txid tr ⟨txid, b.height, .error (crashReason detail), some detail⟩
  /-- Its fee cannot be looked up. -/
  | uncharged {tr tr' : List Exchange} {tx : Transaction} {cause : ChainError}
      (h : Searched b txid tr (.found tx))
      (hfee : Charged c.owners (tx.atHeight b.height) tr' (.error cause)) :
      Examined c b txid (tr ++ tr') ⟨txid, b.height, .error (feeReason cause), none⟩
  | extracted {tr tr' : List Exchange} {tx : Transaction} {fee : Option UInt64}
      (h : Searched b txid tr (.found tx))
      (hfee : Charged c.owners (tx.atHeight b.height) tr' (.ok fee)) :
      Examined c b txid (tr ++ tr') ⟨txid, (tx.atHeight b.height).height,
        .ok (classify c.asset c.owners b.blockHash fee (tx.atHeight b.height)), none⟩

theorem lookUp_searched (b : Batch) (txid : String) :
    (lookUp txid b.isMempool).Yields (Searched b txid) := by
  unfold lookUp
  by_cases hmem : b.isMempool = true
  · rw [if_pos hmem]
    apply Yields.bind (P := fun tr answer => tr = [⟨.chain (.mempoolTransaction txid), answer⟩])
      (Yields.query fun answer => rfl)
    rintro _ answer rfl
    cases answer with
    | ok tx => exact Yields.done (.pending hmem)
    | error cause => exact Yields.query fun answer => .fallback hmem
  · rw [if_neg hmem]
    exact Yields.query fun answer => .committed (by simpa using hmem)

theorem lookUpFee_charged (owners : Owners) (tx : Transaction) :
    (lookUpFee owners tx).Yields (Charged owners tx) := by
  unfold lookUpFee
  cases hpayer : feePayer owners tx with
  | none => exact Yields.done (.free hpayer)
  | some payer =>
    apply Yields.bind
      (P := fun tr answer => tr = [⟨.chain (.fee tx.feeKind tx.height), answer⟩])
      (Yields.query fun answer => rfl)
    rintro _ answer rfl
    cases answer with
    | ok fee => exact Yields.done (.known hpayer)
    | error cause => exact Yields.done (.unknown hpayer)

theorem extractOne_examined (c : Classifier) (b : Batch) (txid : String) :
    (extractOne c b.height b.blockHash b.isMempool txid).Yields (Examined c b txid) := by
  unfold extractOne
  apply Yields.bind (lookUp_searched b txid)
  intro tr answer hsearched
  cases answer with
  | failed cause => exact Yields.done (by simpa using Examined.unfound hsearched)
  | crashed detail => exact Yields.done (by simpa using Examined.died hsearched)
  | found tx =>
    apply Yields.bind (lookUpFee_charged c.owners (tx.atHeight b.height))
    intro tr' answer hcharged
    cases answer with
    | error cause => exact Yields.done (by simpa using Examined.uncharged hsearched hcharged)
    | ok fee => exact Yields.done (by simpa using Examined.extracted hsearched hcharged)

theorem Examined.txid_eq {c : Classifier} {b : Batch} {txid : String} {tr : List Exchange}
    {e : Extraction} (h : Examined c b txid tr e) : e.txid = txid := by
  cases h <;> rfl

theorem Charged.isLookup {owners : Owners} {tx : Transaction} {tr : List Exchange}
    {fee : Except ChainError (Option UInt64)} (h : Charged owners tx tr fee) :
    ∀ x ∈ tr, x.IsLookup := by
  cases h <;> simp [Exchange.IsLookup]

theorem Searched.isLookup {b : Batch} {txid : String} {tr : List Exchange} {answer : Lookup}
    (h : Searched b txid tr answer) : ∀ x ∈ tr, x.IsLookup := by
  cases h <;> simp [Exchange.IsLookup]

theorem Examined.isLookup {c : Classifier} {b : Batch} {txid : String} {tr : List Exchange}
    {e : Extraction} (h : Examined c b txid tr e) : ∀ x ∈ tr, x.IsLookup := by
  cases h with
  | unfound h => exact h.isLookup
  | died h => exact h.isLookup
  | uncharged h hfee => exact List.forall_mem_append.mpr ⟨h.isLookup, hfee.isLookup⟩
  | extracted h hfee => exact List.forall_mem_append.mpr ⟨h.isLookup, hfee.isLookup⟩

theorem Examined.sorted {c : Classifier} {b : Batch} {txid : String} {tr : List Exchange}
    {e : Extraction} (h : Examined c b txid tr e) {data : OwnerMap ExtractedData}
    (hdata : e.outcome = .ok data) : data.Sorted := by
  cases h with
  | extracted h hfee =>
    obtain rfl := Except.ok.inj hdata
    exact classify_sorted _ _ _ _ _
  | _ => cases hdata

/-- The questions about one transaction, and what came of them. -/
structure Inquiry where
  asked : List Exchange
  found : Extraction

/-- A batch can go through an inquiry. -/
def Inquiry.Admitted (c : Classifier) (b : Batch) (q : Inquiry) : Prop :=
  (extractOne c b.height b.blockHash b.isMempool q.found.txid).Admits q.asked (.ok q.found)

theorem Inquiry.Admitted.examined {c : Classifier} {b : Batch} {q : Inquiry}
    (h : q.Admitted c b) : Examined c b q.found.txid q.asked q.found := by
  obtain ⟨e, he, hexamined⟩ := Admits.ensures h (extractOne_examined c b q.found.txid)
  rwa [← Except.ok.inj he] at hexamined

/-- Some transactions are asked about one after the other. -/
theorem extractAll_inquires (c : Classifier) (b : Batch) :
    ∀ txids : List String, (extractAll c b txids).Yields fun tr results =>
      ∃ inquiries : List Inquiry, inquiries.map (·.found.txid) = txids ∧
        (∀ q ∈ inquiries, q.Admitted c b) ∧
        tr = inquiries.flatMap Inquiry.asked ∧ results = inquiries.map Inquiry.found
  | [] => Yields.done ⟨[], rfl, by simp, rfl, rfl⟩
  | txid :: rest => by
    unfold extractAll
    apply Yields.bind (extractOne_examined c b txid).admits
    rintro tr first ⟨hadmits, hexamined⟩
    apply Yields.bind (extractAll_inquires c b rest)
    rintro tr' others ⟨inquiries, htxids, hall, rfl, rfl⟩
    apply Yields.done
    have hfirst : Inquiry.Admitted c b ⟨tr, first⟩ := by
      unfold Inquiry.Admitted
      rwa [hexamined.txid_eq]
    refine ⟨⟨tr, first⟩ :: inquiries, ?_, List.forall_mem_cons.mpr ⟨hfirst, hall⟩, by simp, rfl⟩
    rw [List.map_cons, htxids, hexamined.txid_eq]

/-! ## Deliveries -/

/-- Why a delivery was refused. -/
def Exchange.refusal? : Exchange → Option String
  | ⟨.deliver _ owner _, .error cause⟩ => some (deliveryReason owner.render cause)
  | _ => none

/-- The deliveries of data: for each owner in order, each sink once. -/
def dataDeliveries (sinks : Nat) (data : OwnerMap ExtractedData) : List Query :=
  data.flatMap fun entry => (List.range sinks).map fun sink => .deliver sink entry.1 entry.2

namespace Extraction

/-- The deliveries that a result calls for. -/
def deliveries (sinks : Nat) (e : Extraction) : List Query :=
  match e.outcome with
  | .error _ => []
  | .ok data => dataDeliveries sinks data

/-- The first failure of a transaction: why there are no data, or else the first refusal among the
deliveries. -/
def firstFailure (e : Extraction) (offered : List Exchange) : Option String :=
  match e.outcome with
  | .error reason => some reason
  | .ok _ => offered.findSome? Exchange.refusal?

/-- How many owners a result has data of. -/
def owners (e : Extraction) : Nat :=
  match e.outcome with
  | .error _ => 0
  | .ok data => data.length

end Extraction

theorem offer_offers (owner : OwnerKey) (data : ExtractedData) :
    ∀ sinks : List Nat, (offer owner data sinks).Yields fun tr refusal =>
      tr.map Sigma.fst = (sinks.map fun sink => .deliver sink owner data) ∧
        tr.findSome? Exchange.refusal? = refusal.map (deliveryReason owner.render)
  | [] => Yields.done ⟨rfl, rfl⟩
  | sink :: rest => by
    unfold offer
    apply Yields.bind (P := fun tr answer => tr = [⟨.deliver sink owner data, answer⟩])
      (Yields.query fun answer => rfl)
    rintro _ answer rfl
    apply Yields.bind (offer_offers owner data rest)
    rintro tr later ⟨hcalls, hrefusal⟩
    rcases answer with cause | ⟨⟩
    · apply Yields.done
      exact ⟨by simp [hcalls], rfl⟩
    · apply Yields.done
      refine ⟨by simp [hcalls], ?_⟩
      rw [List.append_nil]
      exact hrefusal

theorem deliver_delivers (sinks : Nat) :
    ∀ data : OwnerMap ExtractedData, (deliver sinks data).Yields fun tr answer =>
      tr.map Sigma.fst = dataDeliveries sinks data ∧
        answer.2 = tr.findSome? Exchange.refusal? ∧ (answer.2 = none → answer.1 = data.length)
  | [] => Yields.done ⟨rfl, rfl, fun _ => rfl⟩
  | (owner, d) :: rest => by
    unfold deliver
    apply Yields.bind (offer_offers owner d (List.range sinks))
    rintro tr refusal ⟨hcalls, hrefusal⟩
    apply Yields.bind (deliver_delivers sinks rest)
    rintro tr' ⟨delivered, failure⟩ ⟨hcalls', hfailure, hlength⟩
    have hall : (tr ++ (tr' ++ [])).map Sigma.fst = dataDeliveries sinks ((owner, d) :: rest) := by
      rw [List.append_nil, List.map_append, hcalls, hcalls']
      rfl
    cases refusal with
    | none =>
      apply Yields.done
      refine ⟨hall, ?_, ?_⟩
      · simpa [List.findSome?_append, hrefusal] using hfailure
      · intro hnone
        exact congrArg (· + 1) (hlength hnone)
    | some cause =>
      apply Yields.done
      refine ⟨hall, ?_, by simp⟩
      simp [List.findSome?_append, hrefusal]

/-- How a result was handled: its deliveries, how many owners' data every sink took, and the first
failure. -/
structure Handling where
  result : Extraction
  offered : List Exchange
  taken : Nat
  failure : Option String

/-- A batch can go through a handling. -/
def Handling.Admitted (sinks : Nat) (p : Handling) : Prop :=
  (settle sinks p.result).Admits p.offered (.ok (p.taken, p.failure))

/-- Every delivery is made, whatever is answered; the failure is the first one, and if there is none
then the data of every owner were taken. -/
structure Handling.Fits (sinks : Nat) (p : Handling) : Prop where
  calls : p.offered.map Sigma.fst = p.result.deliveries sinks
  failure_eq : p.failure = p.result.firstFailure p.offered
  taken_eq : p.failure = none → p.taken = p.result.owners

theorem settle_fits (sinks : Nat) (e : Extraction) :
    (settle sinks e).Yields fun tr answer => Handling.Fits sinks ⟨e, tr, answer.1, answer.2⟩ := by
  unfold settle
  cases houtcome : e.outcome with
  | error reason =>
    apply Yields.done
    constructor
    · simp [Extraction.deliveries, houtcome]
    · simp [Extraction.firstFailure, houtcome]
    · simp
  | ok data =>
    apply (deliver_delivers sinks data).mono
    rintro tr ⟨delivered, failure⟩ ⟨hcalls, hfailure, hlength⟩
    constructor
    · simpa [Extraction.deliveries, houtcome] using hcalls
    · simpa [Extraction.firstFailure, houtcome] using hfailure
    · simpa [Extraction.owners, houtcome] using hlength

theorem Handling.Admitted.fits {sinks : Nat} {p : Handling} (h : p.Admitted sinks) :
    p.Fits sinks := by
  obtain ⟨answer, hanswer, hfits⟩ := Admits.ensures h (settle_fits sinks p.result)
  rwa [← Except.ok.inj hanswer] at hfits

/-! ## Handled results -/

namespace Handling

/-- The record of a failure. -/
def record (height : UInt64) (p : Handling) : Option UnscannedRecord :=
  p.failure.map fun reason => .of height p.result.txid reason

/-- The deliveries, and the record if one had to be saved. -/
def trace (height : UInt64) (p : Handling) : List Exchange :=
  p.offered ++ (p.record height).toList.map fun r => ⟨.ledger (.saveUnscanned r), .ok ()⟩

end Handling

/-- The records that have to be saved, in the order in which the results were handled. -/
def recordsOf (height : UInt64) (handled : List Handling) : List UnscannedRecord :=
  handled.filterMap (Handling.record height)

/-- Results are handled one after the other: all of them, or up to one that fails and whose record
cannot be saved. -/
inductive Handled (sinks : Nat) (height : UInt64) (results : List Extraction) :
    List Exchange → Except LedgerError (Nat × List String) → Prop
  | whole {handled : List Handling} (hresults : handled.map Handling.result = results)
      (hall : ∀ p ∈ handled, p.Admitted sinks) :
      Handled sinks height results (handled.flatMap (Handling.trace height))
        (.ok ((handled.map Handling.taken).sum,
          (recordsOf height handled).map UnscannedRecord.txid))
  | abandoned {handled : List Handling} {last : Handling} {rest : List Extraction}
      {r : UnscannedRecord} {cause : LedgerError}
      (hresults : handled.map Handling.result ++ last.result :: rest = results)
      (hall : ∀ p ∈ handled, p.Admitted sinks) (hlast : last.Admitted sinks)
      (hrecord : last.record height = some r) :
      Handled sinks height results
        (handled.flatMap (Handling.trace height) ++
          (last.offered ++ [⟨.ledger (.saveUnscanned r), .error cause⟩]))
        (.error cause)

/-- A result that is handled first. -/
theorem Handled.cons {sinks : Nat} {height : UInt64} {p : Handling} {rest : List Extraction}
    {tr : List Exchange} {delivered : Nat} {failed : List String} (hp : p.Admitted sinks)
    (h : Handled sinks height rest tr (.ok (delivered, failed))) :
    Handled sinks height (p.result :: rest) (p.trace height ++ tr)
      (.ok (p.taken + delivered, (p.record height).toList.map UnscannedRecord.txid ++ failed)) := by
  cases h with
  | @whole handled hresults hall =>
    have hcons : Handled sinks height (p.result :: rest)
        ((p :: handled).flatMap (Handling.trace height))
        (.ok (((p :: handled).map Handling.taken).sum,
          (recordsOf height (p :: handled)).map UnscannedRecord.txid)) :=
      .whole (by rw [List.map_cons, hresults]) (List.forall_mem_cons.mpr ⟨hp, hall⟩)
    cases hrecord : p.record height <;> simpa [recordsOf, hrecord] using hcons

theorem Handled.cons_error {sinks : Nat} {height : UInt64} {p : Handling} {rest : List Extraction}
    {tr : List Exchange} {cause : LedgerError} (hp : p.Admitted sinks)
    (h : Handled sinks height rest tr (.error cause)) :
    Handled sinks height (p.result :: rest) (p.trace height ++ tr) (.error cause) := by
  cases h with
  | @abandoned handled last others r cause hresults hall hlast hrecord =>
    have hcons : Handled sinks height (p.result :: rest)
        ((p :: handled).flatMap (Handling.trace height) ++
          (last.offered ++ [⟨.ledger (.saveUnscanned r), .error cause⟩])) (.error cause) :=
      .abandoned (by rw [List.map_cons, List.cons_append, hresults])
        (List.forall_mem_cons.mpr ⟨hp, hall⟩) hlast hrecord
    simpa using hcons

/-- **Results are handled one by one.** -/
theorem settleAll_handles (sinks : Nat) (height : UInt64) :
    ∀ results : List Extraction,
      (settleAll sinks height results).Yields (Handled sinks height results)
  | [] => Yields.done (@Handled.whole sinks height [] [] rfl (by simp))
  | e :: rest => by
    unfold settleAll
    apply Yields.bind (settle_fits sinks e).admits
    rintro tr ⟨taken, failure⟩ ⟨hadmits, -⟩
    have hp : Handling.Admitted sinks ⟨e, tr, taken, failure⟩ := hadmits
    cases failure with
    | none =>
      apply Yields.bind (settleAll_handles sinks height rest)
      rintro tr' (cause | ⟨others, failed⟩) h
      · exact Yields.done (by simpa [Handling.trace, Handling.record] using Handled.cons_error hp h)
      · exact Yields.done (by simpa [Handling.trace, Handling.record] using Handled.cons hp h)
    | some reason =>
      apply Yields.bind
        (P := fun tr answer =>
          tr = [⟨.ledger (.saveUnscanned (.of height e.txid reason)), answer⟩])
        (Yields.query fun answer => rfl)
      rintro _ (cause | ⟨⟩) rfl
      · apply Yields.done
        have habandoned : Handled sinks height (e :: rest)
            ([] ++ (tr ++ [⟨.ledger (.saveUnscanned (.of height e.txid reason)), .error cause⟩]))
            (.error cause) :=
          @Handled.abandoned sinks height _ [] _ rest _ cause rfl (by simp) hp rfl
        simpa using habandoned
      · apply Yields.bind (settleAll_handles sinks height rest)
        rintro tr' (cause | ⟨others, failed⟩) h
        · apply Yields.done
          simpa [Handling.trace, Handling.record] using Handled.cons_error hp h
        · apply Yields.done
          simpa [Handling.trace, Handling.record, UnscannedRecord.of] using Handled.cons hp h

/-! ## Whole batches -/

/-- What a batch answers after its results were handled. -/
def Batch.answer (b : Batch) :
    Except LedgerError (Nat × List String) → Except BatchError BatchSummary
  | .error cause => .error (.ledger cause)
  | .ok (delivered, []) => .ok ⟨b.txids.length, delivered⟩
  | .ok (_, failed) => .error (.incomplete b.height failed b.txids.length)

/-- **A batch asks about its transactions and handles what comes of them.** -/
theorem extractBatch_handles (c : Classifier) (sinks : Nat) (b : Batch) :
    (extractBatch c sinks b).Yields fun tr answer =>
      ∃ (inquiries : List Inquiry) (tr' : List Exchange)
        (verdict : Except LedgerError (Nat × List String)),
        inquiries.map (·.found.txid) = b.txids ∧ (∀ q ∈ inquiries, q.Admitted c b) ∧
        Handled sinks b.height (deliveryOrder (inquiries.map Inquiry.found)) tr' verdict ∧
        tr = inquiries.flatMap Inquiry.asked ++ tr' ∧ answer = b.answer verdict := by
  unfold extractBatch
  split
  · rename_i hempty
    have hnil : b.txids = [] := List.isEmpty_iff.mp hempty
    apply Yields.done
    refine ⟨[], [], .ok (0, []), hnil.symm, by simp, ?_, rfl, ?_⟩
    · exact @Handled.whole sinks b.height [] [] rfl (by simp)
    · simp [Batch.answer, hnil]
  · apply Yields.bind (extractAll_inquires c b b.txids)
    rintro tr results ⟨inquiries, htxids, hall, rfl, rfl⟩
    apply Yields.bind (settleAll_handles sinks b.height _)
    intro tr' verdict hhandled
    rcases verdict with cause | ⟨delivered, _ | ⟨txid, rest⟩⟩
    all_goals
      apply Yields.done
      exact ⟨inquiries, tr', _, htxids, hall, hhandled, by simp, rfl⟩

/-! ## Batches over a ledger -/

/-- Whether a query is a delivery to a sink. -/
def Query.isDelivery : Query → Bool
  | .deliver _ _ _ => true
  | _ => false

/-- The deliveries among some exchanges, in order. -/
def sinkCalls (tr : List Exchange) : List Query := (tr.map Sigma.fst).filter Query.isDelivery

theorem sinkCalls_append (tr tr' : List Exchange) :
    sinkCalls (tr ++ tr') = sinkCalls tr ++ sinkCalls tr' := by
  simp [sinkCalls]

theorem Exchange.IsLookup.isDelivery_eq_false {x : Exchange} (h : x.IsLookup) :
    x.1.isDelivery = false := by
  obtain ⟨q, a⟩ := x
  cases q <;> simp_all [Exchange.IsLookup, Query.isDelivery]

/-- Lookups call no sink. -/
theorem sinkCalls_eq_nil {tr : List Exchange} (h : ∀ x ∈ tr, x.IsLookup) : sinkCalls tr = [] := by
  unfold sinkCalls
  rw [List.filter_eq_nil_iff]
  intro q hq
  obtain ⟨x, hx, rfl⟩ := List.mem_map.mp hq
  rw [(h x hx).isDelivery_eq_false]
  exact Bool.false_ne_true

theorem Extraction.isDelivery_of_mem {sinks : Nat} {e : Extraction} {q : Query}
    (h : q ∈ e.deliveries sinks) : q.isDelivery = true := by
  unfold Extraction.deliveries at h
  split at h
  · cases h
  · obtain ⟨entry, -, hq⟩ := List.mem_flatMap.mp h
    obtain ⟨sink, -, rfl⟩ := List.mem_map.mp hq
    rfl

namespace Handling.Fits

variable {sinks : Nat} {p : Handling}

theorem sinkCalls_offered (h : p.Fits sinks) : sinkCalls p.offered = p.result.deliveries sinks := by
  unfold sinkCalls
  rw [h.calls]
  exact List.filter_eq_self.mpr fun q hq => Extraction.isDelivery_of_mem hq

theorem sinkCalls_trace (h : p.Fits sinks) (height : UInt64) :
    sinkCalls (p.trace height) = p.result.deliveries sinks := by
  unfold Handling.trace
  rw [sinkCalls_append, h.sinkCalls_offered]
  cases p.record height <;> simp [sinkCalls, Query.isDelivery]

theorem isDelivery (h : p.Fits sinks) : ∀ x ∈ p.offered, x.IsDelivery := by
  intro x hx
  have hmem : x.1 ∈ p.result.deliveries sinks := h.calls ▸ List.mem_map_of_mem hx
  have hdelivery := Extraction.isDelivery_of_mem hmem
  obtain ⟨q, a⟩ := x
  cases q with
  | deliver sink owner data => trivial
  | _ => cases hdelivery

/-- A transaction fails if there are no data, or a sink refuses some. -/
theorem failure_eq_none (h : p.Fits sinks) :
    p.failure = none ↔
      (∃ data, p.result.outcome = .ok data) ∧ ∀ x ∈ p.offered, x.refusal? = none := by
  rw [h.failure_eq]
  unfold Extraction.firstFailure
  cases p.result.outcome with
  | error reason => simp
  | ok data => simp [List.findSome?_eq_none_iff]

end Handling.Fits

section

variable {L : Type} {perform : (op : LedgerOp) → L → Except LedgerError op.Answer × L}

/-- Lookups and deliveries do not touch a ledger. -/
theorem replay_outside {tr : List Exchange} (h : ∀ x ∈ tr, x.IsLookup ∨ x.IsDelivery) (l : L) :
    replay perform l tr = l := by
  have hnone : ∀ op answer, (⟨.ledger op, answer⟩ : Exchange) ∉ tr := by
    intro op answer hx
    exact (h _ hx).elim id id
  exact (replay_frame (K := fun _ => False) (R := Eq) (fun _ => rfl) Eq.trans
    (fun _ _ hop => hop.elim) (fun op answer hx => hnone op answer hx) l).symm

end

theorem Ledger.saving_append (l : Ledger) (records records' : List UnscannedRecord) :
    l.saving (records ++ records') = (l.saving records).saving records' := List.foldl_append

theorem Ledger.saving_samePosition (l : Ledger) (records : List UnscannedRecord) :
    l.SamePosition (l.saving records) := by
  induction records generalizing l with
  | nil => exact Ledger.SamePosition.refl l
  | cons r rest ih =>
    have hstep : l.SamePosition (l.perform (.saveUnscanned r)).2 :=
      @Ledger.perform_keepsPosition (.saveUnscanned r) trivial l
    exact hstep.trans (ih _)

theorem Handling.Fits.replay_trace {sinks : Nat} {p : Handling} (h : p.Fits sinks)
    (height : UInt64) (l : Ledger) :
    replay Ledger.perform l (p.trace height) = l.saving (p.record height).toList := by
  unfold Handling.trace
  rw [replay_append, replay_outside fun x hx => .inr (h.isDelivery x hx)]
  cases p.record height <;> rfl

theorem recordsOf_cons (height : UInt64) (p : Handling) (rest : List Handling) :
    recordsOf height (p :: rest) = (p.record height).toList ++ recordsOf height rest := by
  unfold recordsOf
  cases hrecord : p.record height <;> simp [hrecord]

theorem recordsOf_append (height : UInt64) (handled handled' : List Handling) :
    recordsOf height (handled ++ handled') =
      recordsOf height handled ++ recordsOf height handled' :=
  List.filterMap_append

/-- Handled results save their records and do nothing else to a ledger. -/
theorem replay_handled {sinks : Nat} {height : UInt64} {handled : List Handling}
    (hfits : ∀ p ∈ handled, p.Fits sinks) (l : Ledger) :
    replay Ledger.perform l (handled.flatMap (Handling.trace height)) =
      l.saving (recordsOf height handled) := by
  induction handled generalizing l with
  | nil => rfl
  | cons p rest ih =>
    rw [List.forall_mem_cons] at hfits
    rw [List.flatMap_cons, replay_append, hfits.1.replay_trace, ih hfits.2, recordsOf_cons,
      Ledger.saving_append]

theorem mem_recordsOf {height : UInt64} {handled : List Handling} {r : UnscannedRecord} :
    r ∈ recordsOf height handled ↔
      ∃ p ∈ handled, ∃ reason, p.failure = some reason ∧ r = .of height p.result.txid reason := by
  simp only [recordsOf, List.mem_filterMap, Handling.record, Option.map_eq_some_iff]
  constructor
  · rintro ⟨p, hp, reason, hfailure, rfl⟩
    exact ⟨p, hp, reason, hfailure, rfl⟩
  · rintro ⟨p, hp, reason, hfailure, rfl⟩
    exact ⟨p, hp, reason, hfailure, rfl⟩

/-- The transactions of the records are some of the handled ones, in order. -/
theorem recordsOf_txids (height : UInt64) (handled : List Handling) :
    ((recordsOf height handled).map (·.txid)).Sublist (handled.map (·.result.txid)) := by
  induction handled with
  | nil => exact .refl _
  | cons p rest ih =>
    rw [recordsOf_cons, List.map_cons]
    unfold Handling.record
    cases p.failure with
    | none => exact ih.cons _
    | some reason => exact ih.cons_cons _

/-- A ledger carries every save out. -/
theorem perform_saveUnscanned (l : Ledger) (r : UnscannedRecord) :
    (l.perform (.saveUnscanned r)).1 = .ok () := by
  cases l <;> rfl

/-- A batch over a ledger handles all of its results. -/
theorem Handled.whole_of_answered {sinks : Nat} {height : UInt64} {results : List Extraction}
    {tr : List Exchange} {verdict : Except LedgerError (Nat × List String)} {l : Ledger}
    (h : Handled sinks height results tr verdict) (hanswered : Answered Ledger.perform l tr) :
    ∃ handled : List Handling, handled.map Handling.result = results ∧
      (∀ p ∈ handled, p.Fits sinks) ∧ tr = handled.flatMap (Handling.trace height) ∧
      verdict =
        .ok ((handled.map Handling.taken).sum, (recordsOf height handled).map (·.txid)) := by
  cases h with
  | @whole handled hresults hall =>
    exact ⟨handled, hresults, fun p hp => (hall p hp).fits, rfl, rfl⟩
  | abandoned hresults hall hlast hrecord =>
    rw [answered_append, answered_append] at hanswered
    have hsave := hanswered.2.2.1
    rw [perform_saveUnscanned] at hsave
    cases hsave

theorem asked_isLookup {c : Classifier} {b : Batch} {inquiries : List Inquiry}
    (h : ∀ q ∈ inquiries, Examined c b q.found.txid q.asked q.found) :
    ∀ x ∈ inquiries.flatMap Inquiry.asked, x.IsLookup := by
  intro x hx
  obtain ⟨q, hq, hx⟩ := List.mem_flatMap.mp hx
  exact (h q hq).isLookup x hx

/-- Inquiries and handled results that make up a batch: one inquiry for each transaction, in order,
and what came of them handled in the order of delivery. -/
structure Batch.Account (c : Classifier) (sinks : Nat) (b : Batch) (inquiries : List Inquiry)
    (handled : List Handling) : Prop where
  txids_eq : inquiries.map (·.found.txid) = b.txids
  examined : ∀ q ∈ inquiries, Examined c b q.found.txid q.asked q.found
  handled_eq : handled.map Handling.result = deliveryOrder (inquiries.map Inquiry.found)
  fits : ∀ p ∈ handled, p.Fits sinks

/-- What a batch answers of which all results were handled. -/
def Batch.summary (b : Batch) (handled : List Handling) : Except BatchError BatchSummary :=
  match recordsOf b.height handled with
  | [] => .ok ⟨b.txids.length, (handled.map (·.result.owners)).sum⟩
  | r :: rest => .error (.incomplete b.height ((r :: rest).map (·.txid)) b.txids.length)

/-- If no worker died, the results are delivered in order. -/
theorem deliveryOrder_eq_self {results : List Extraction} (h : ∀ e ∈ results, e.crash = none) :
    deliveryOrder results = results := by
  unfold deliveryOrder
  rw [List.filter_eq_self.mpr fun e he => by rw [h e he]; rfl,
    List.filter_eq_nil_iff.mpr fun e he => by rw [h e he]; simp, List.append_nil]

namespace Batch.Account

variable {c : Classifier} {sinks : Nat} {b : Batch} {inquiries : List Inquiry}
  {handled : List Handling}

theorem txids_perm (h : b.Account c sinks inquiries handled) :
    (handled.map (·.result.txid)).Perm b.txids := by
  have hperm := (deliveryOrder_perm (inquiries.map Inquiry.found)).map Extraction.txid
  rw [← h.handled_eq, List.map_map, List.map_map] at hperm
  rwa [← h.txids_eq]

theorem exists_inquiry (h : b.Account c sinks inquiries handled) {p : Handling}
    (hp : p ∈ handled) : ∃ q ∈ inquiries, q.found = p.result := by
  have hresult : p.result ∈ deliveryOrder (inquiries.map Inquiry.found) :=
    h.handled_eq ▸ List.mem_map_of_mem hp
  exact List.mem_map.mp (mem_deliveryOrder.mp hresult)

/-- Data are delivered in the order of their owners. -/
theorem sorted (h : b.Account c sinks inquiries handled) {p : Handling} (hp : p ∈ handled)
    {data : OwnerMap ExtractedData} (hdata : p.result.outcome = .ok data) : data.Sorted := by
  obtain ⟨q, hq, hfound⟩ := h.exists_inquiry hp
  exact (h.examined q hq).sorted (hfound ▸ hdata)

/-- If no lookup died, the transactions are handled in the order of the batch. -/
theorem in_order (h : b.Account c sinks inquiries handled)
    (halive : ∀ p ∈ handled, p.result.crash = none) :
    handled.map (·.result.txid) = b.txids := by
  have hfound : ∀ e ∈ inquiries.map Inquiry.found, e.crash = none := by
    intro e he
    rw [← mem_deliveryOrder, ← h.handled_eq] at he
    obtain ⟨p, hp, rfl⟩ := List.mem_map.mp he
    exact halive p hp
  have hresults := h.handled_eq
  rw [deliveryOrder_eq_self hfound] at hresults
  have htxids := congrArg (List.map Extraction.txid) hresults
  rw [List.map_map, List.map_map] at htxids
  rwa [← h.txids_eq]

/-- The answer of a batch does not need the counts of those that failed. -/
theorem answer_eq (h : b.Account c sinks inquiries handled) :
    b.answer (.ok ((handled.map Handling.taken).sum, (recordsOf b.height handled).map (·.txid))) =
      b.summary handled := by
  unfold Batch.summary
  cases hrecords : recordsOf b.height handled with
  | cons r rest => rfl
  | nil =>
    have htaken : handled.map Handling.taken = handled.map (·.result.owners) := by
      apply List.map_congr_left
      intro p hp
      apply (h.fits p hp).taken_eq
      have hnone := List.filterMap_eq_nil_iff.mp hrecords p hp
      simpa [Handling.record] using hnone
    rw [htaken]
    rfl

theorem sinkCalls_eq (h : b.Account c sinks inquiries handled) :
    sinkCalls (inquiries.flatMap Inquiry.asked ++ handled.flatMap (Handling.trace b.height)) =
      handled.flatMap fun p => p.result.deliveries sinks := by
  rw [sinkCalls_append, sinkCalls_eq_nil (asked_isLookup h.examined), List.nil_append]
  have hfits := h.fits
  clear h
  induction handled with
  | nil => rfl
  | cons p rest ih =>
    rw [List.forall_mem_cons] at hfits
    rw [List.flatMap_cons, List.flatMap_cons, sinkCalls_append, hfits.1.sinkCalls_trace,
      ih hfits.2]

theorem replay_eq (h : b.Account c sinks inquiries handled) (l : Ledger) :
    replay Ledger.perform l
        (inquiries.flatMap Inquiry.asked ++ handled.flatMap (Handling.trace b.height)) =
      l.saving (recordsOf b.height handled) := by
  rw [replay_append, replay_outside fun x hx => .inl (asked_isLookup h.examined x hx),
    replay_handled h.fits]

end Batch.Account

/-- A run of a batch over a ledger has an account. -/
theorem extractBatch_account {τ : Type} (c : Classifier) (sinks : Nat) (b : Batch)
    (outside : Handler τ) (l : Ledger) (t : τ) :
    ∃ (inquiries : List Inquiry) (handled : List Handling),
      b.Account c sinks inquiries handled ∧
      ((extractBatch c sinks b).run (amid Ledger.perform outside) (l, t)).result =
        .ok (b.summary handled) ∧
      ((extractBatch c sinks b).run (amid Ledger.perform outside) (l, t)).trace =
        inquiries.flatMap Inquiry.asked ++ handled.flatMap (Handling.trace b.height) := by
  obtain ⟨answer, hresult, inquiries, tr', verdict, htxids, hadmitted, hhandled, htrace, rfl⟩ :=
    (extractBatch_handles c sinks b).run (amid Ledger.perform outside) (l, t)
  have hanswered : Answered Ledger.perform l
      ((extractBatch c sinks b).run (amid Ledger.perform outside) (l, t)).trace :=
    answered_run _ l t
  rw [htrace, answered_append] at hanswered
  obtain ⟨handled, hresults, hfits, rfl, rfl⟩ := hhandled.whole_of_answered hanswered.2
  have haccount : b.Account c sinks inquiries handled :=
    ⟨htxids, fun q hq => (hadmitted q hq).examined, hresults, hfits⟩
  exact ⟨inquiries, handled, haccount, haccount.answer_eq ▸ hresult, htrace⟩

section

variable {c : Classifier} {sinks : Nat} {b : Batch} {l : Ledger} {inquiries : List Inquiry}
  {handled : List Handling}

/-- The records of a batch and those of the ledger are kept apart by their identifiers. -/
theorem recordsOf_distinct (haccount : b.Account c sinks inquiries handled) (hkept : l.WellKept)
    (hapart : Set.InjOn Sha256.hexOfText {text |
      (∃ r ∈ l.records, text = UnscannedRecord.text r.height r.txid) ∨
        ∃ txid ∈ b.txids, text = UnscannedRecord.text b.height txid}) :
    Distinct (recordsOf b.height handled ++ l.records) := by
  constructor
  · intro r hr
    rcases List.mem_append.mp hr with hr | hr
    · obtain ⟨p, -, reason, -, rfl⟩ := mem_recordsOf.mp hr
      rfl
    · exact hkept.computed r hr
  · apply hapart.mono
    rintro _ ⟨r, hr, rfl⟩
    rcases List.mem_append.mp hr with hr | hr
    · obtain ⟨p, hp, reason, -, rfl⟩ := mem_recordsOf.mp hr
      have htxid : p.result.txid ∈ b.txids :=
        haccount.txids_perm.subset (List.mem_map_of_mem hp)
      exact .inr ⟨p.result.txid, htxid, rfl⟩
    · exact .inl ⟨r, hr, rfl⟩

/-- Distinct transactions get records of their own, which take the place of those that the ledger
holds of them. -/
theorem saving_recordsOf (hkept : l.WellKept)
    (hdistinct : Distinct (recordsOf b.height handled ++ l.records))
    (hnodup : (handled.map (·.result.txid)).Nodup) :
    (l.saving (recordsOf b.height handled)).records.Perm
      (recordsOf b.height handled ++ l.records.filter fun r =>
        !(r.height == b.height && (recordsOf b.height handled).any (·.txid == r.txid))) := by
  have hheight : ∀ r ∈ recordsOf b.height handled, r.height = b.height := by
    intro r hr
    obtain ⟨p, -, reason, -, rfl⟩ := mem_recordsOf.mp hr
    rfl
  have hids : ((recordsOf b.height handled).map (·.id)).Nodup := by
    have htxids : ((recordsOf b.height handled).map (·.txid)).Nodup :=
      hnodup.sublist (recordsOf_txids b.height handled)
    apply List.pairwise_map.mpr
    apply (List.pairwise_map.mp htxids).imp_of_mem
    intro r r' hr hr' hne hid
    have hsame := (hdistinct.id_eq_iff (List.mem_append_left _ hr)
      (List.mem_append_left _ hr')).mp hid
    exact hne hsame.2
  apply (saving_records hkept.keyed hids).trans
  apply List.Perm.append_left
  apply List.Perm.of_eq
  apply List.filter_congr
  intro x hx
  rw [Bool.eq_iff_iff]
  simp only [decide_eq_true_eq, Bool.not_eq_true', Bool.and_eq_false_iff, beq_eq_false_iff_ne,
    List.any_eq_false, beq_iff_eq, List.mem_map, not_exists, not_and]
  constructor
  · intro hnone
    by_contra hcontra
    push Not at hcontra
    obtain ⟨hx_height, r, hr, htxid⟩ := hcontra
    have hid := (hdistinct.id_eq_iff (List.mem_append_left _ hr)
      (List.mem_append_right _ hx)).mpr ⟨(hheight r hr).trans hx_height.symm, htxid⟩
    exact hnone r hr hid
  · intro hnone r hr hid
    have hsame := (hdistinct.id_eq_iff (List.mem_append_left _ hr)
      (List.mem_append_right _ hx)).mp hid
    rcases hnone with hne | hnone
    · exact hne (hsame.1.symm.trans (hheight r hr))
    · exact hnone r hr hsame.2

end

/-- **The account of a batch.**  A batch of distinct transactions runs over a ledger of either kind,
and the chain source and the sinks may answer each call as they like.  The batch is extracted
completely unless some transactions fail, and these are the ones that cannot be looked up, of which
the fee cannot be looked up, or of which a sink refuses an owner's data; they are answered in the
order in which they were handled.  Every owner's data are offered to every sink once, in order,
whatever the sinks answer.  The ledger gets one record of each failed transaction, with its first
failure, and is not changed otherwise.  SHA-256 is taken to keep apart the texts that occur. -/
theorem batch_accounting {τ : Type} (c : Classifier) (sinks : Nat) (b : Batch)
    (outside : Handler τ) (l : Ledger) (t : τ) (hnodup : b.txids.Nodup) (hkept : l.WellKept)
    (hapart : Set.InjOn Sha256.hexOfText {text |
      (∃ r ∈ l.records, text = UnscannedRecord.text r.height r.txid) ∨
        ∃ txid ∈ b.txids, text = UnscannedRecord.text b.height txid}) :
    ∃ (inquiries : List Inquiry) (handled : List Handling) (s : Ledger × τ),
      (extractBatch c sinks b).run (amid Ledger.perform outside) (l, t) =
        ⟨.ok (b.summary handled), s,
          inquiries.flatMap Inquiry.asked ++ handled.flatMap (Handling.trace b.height)⟩ ∧
      b.Account c sinks inquiries handled ∧
      (handled.map (·.result.txid)).Perm b.txids ∧
      ((∀ p ∈ handled, p.result.crash = none) → handled.map (·.result.txid) = b.txids) ∧
      (∀ p ∈ handled, p.failure = none ↔
        (∃ data, p.result.outcome = .ok data) ∧ ∀ x ∈ p.offered, x.refusal? = none) ∧
      (∀ p ∈ handled, ∀ data, p.result.outcome = .ok data → data.Sorted) ∧
      sinkCalls (inquiries.flatMap Inquiry.asked ++ handled.flatMap (Handling.trace b.height)) =
        handled.flatMap (fun p => p.result.deliveries sinks) ∧
      l.SamePosition s.1 ∧ s.1.WellKept ∧
      s.1.records.Perm (recordsOf b.height handled ++ l.records.filter fun r =>
        !(r.height == b.height && (recordsOf b.height handled).any (·.txid == r.txid))) := by
  obtain ⟨inquiries, handled, haccount, hresult, htrace⟩ :=
    extractBatch_account c sinks b outside l t
  have hsaved : ((extractBatch c sinks b).run (amid Ledger.perform outside) (l, t)).state.1 =
      l.saving (recordsOf b.height handled) := by
    rw [← haccount.replay_eq l, ← htrace]
    exact amid_replay _ l t
  have hdistinct := recordsOf_distinct haccount hkept hapart
  have hhandled : (handled.map (·.result.txid)).Nodup := haccount.txids_perm.nodup_iff.mpr hnodup
  refine ⟨inquiries, handled,
    ((extractBatch c sinks b).run (amid Ledger.perform outside) (l, t)).state, ?_, haccount,
    haccount.txids_perm, haccount.in_order, fun p hp => (haccount.fits p hp).failure_eq_none,
    fun p hp data => haccount.sorted hp, haccount.sinkCalls_eq, ?_, ?_, ?_⟩
  · rw [← hresult, ← htrace]
  · rw [hsaved]
    exact l.saving_samePosition _
  · rw [hsaved]
    apply hkept.saving
    intro r hr
    exact hdistinct.computed r (List.mem_append_left _ hr)
  · rw [hsaved]
    exact saving_recordsOf hkept hdistinct hhandled

open Rehearsal

/-- One address is owned. -/
def walletClassifier : Classifier :=
  ⟨.default, fun address => if address = "mine" then some "w" else none⟩

/-- A chain source that serves two of three transactions, and two sinks of which the second refuses
one of them. -/
def pickyWorld : World where
  chain := { ChainTables.empty with
    transactions :=
      [("u4", .failed (.unavailable "down")),
        ("t4", .found ⟨"t4", 4, "", [⟨"BNB", [], [⟨"mine", 5⟩]⟩]⟩),
        ("r4", .found ⟨"r4", 4, "", [⟨"BNB", [], [⟨"mine", 7⟩]⟩]⟩)] }
  ledger := .memory .empty
  faults := []
  sinks := [⟨0, []⟩, ⟨0, [⟨some "r4", none, .rejected "no"⟩]⟩]
  channel := none
  hooks := []
  task := .idle
  attached := false

/-- One transaction cannot be looked up and one is refused: both are recorded, over the record that
the ledger holds of one of them, and each sink is offered both transactions that are served. -/
theorem pickyWorld_accounting :
    let b : Batch := .block 4 "h4" ["u4", "t4", "r4"]
    let l : Ledger := Ledger.saving [.of 4 "u4" "before", .of 3 "t3" "other"] (.memory .empty)
    let r := (extractBatch walletClassifier 2 b).run (amid Ledger.perform World.handle)
      (l, pickyWorld)
    r.result = .ok (.error (.incomplete 4 ["u4", "r4"] 3)) ∧
      (sinkCalls r.trace).length = 4 ∧
      r.state.1.records.Perm [.of 4 "u4" "Chain source unavailable: down",
        .of 4 "r4" "notify BNB:w failed: Delivery rejected: no", .of 3 "t3" "other"] ∧
      ∃ (inquiries : List Inquiry) (handled : List Handling),
        b.Account walletClassifier 2 inquiries handled ∧
        r.state.1.records.Perm (recordsOf 4 handled ++ l.records.filter fun r =>
          !(r.height == 4 && (recordsOf 4 handled).any (·.txid == r.txid))) := by
  intro b l r
  have hkept : l.WellKept := empty_wellKept.saving (by simp [UnscannedRecord.of])
  have hapart : Set.InjOn Sha256.hexOfText {text |
      (∃ r ∈ l.records, text = UnscannedRecord.text r.height r.txid) ∨
        ∃ txid ∈ b.txids, text = UnscannedRecord.text b.height txid} := by
    let texts := l.records.map (fun r => UnscannedRecord.text r.height r.txid) ++
      b.txids.map (UnscannedRecord.text 4)
    have hdigests : (texts.eraseDups.map Sha256.hexOfText).Nodup := by decide +kernel
    refine injOn_hexOfText_of_mem ?_ hdigests
    rintro text (⟨r, hr, rfl⟩ | ⟨txid, htxid, rfl⟩)
    · exact List.mem_append_left _ (List.mem_map_of_mem hr)
    · exact List.mem_append_right _ (List.mem_map_of_mem htxid)
  obtain ⟨inquiries, handled, s, hrun, haccount, -, -, -, -, -, -, -, hrecords⟩ :=
    batch_accounting walletClassifier 2 b World.handle l pickyWorld (by decide) hkept hapart
  have hresult : r.result = .ok (.error (.incomplete 4 ["u4", "r4"] 3)) := by decide +kernel
  have hcalls : (sinkCalls r.trace).length = 4 := by decide +kernel
  have hleft : r.state.1.records.Perm [.of 4 "u4" "Chain source unavailable: down",
      .of 4 "r4" "notify BNB:w failed: Delivery rejected: no", .of 3 "t3" "other"] := by
    decide +kernel
  have hstate : s = r.state := (congrArg Run.state hrun).symm
  refine ⟨hresult, hcalls, hleft, inquiries, handled, haccount, ?_⟩
  rw [← hstate]
  exact hrecords

end WalletScan
