import Mathlib.Data.List.Forall2
import WalletScan.Proofs.Scripts
import WalletScan.Engine
import WalletScan.Handoff

/-!
# What a batch leaves behind

A batch looks its transactions up, delivers what they mean to the sinks and records what failed.

* `extractAll_handedOver` — the queue through which results come to be delivered keeps their order.
* `settleAll_yields` — every result is taken by every sink or recorded, and the answer lists
  exactly the records that were saved.
* `runBatch_ensures` — the same for the transactions of a batch.  A record that cannot be saved is
  the last thing that happens.
-/

set_option autoImplicit false

namespace WalletScan

open Script

/-! ## Kinds of exchanges -/

namespace Exchange

/-- A question to the chain source about a single transaction. -/
def IsLookup : Exchange → Prop
  | ⟨.chain (.transaction _), _⟩ => True
  | ⟨.chain (.mempoolTransaction _), _⟩ => True
  | ⟨.chain (.fee _ _), _⟩ => True
  | _ => False

/-- A delivery to a sink. -/
def IsDelivery : Exchange → Prop
  | ⟨.deliver _ _ _, _⟩ => True
  | _ => False

/-- The saving of a record at a height. -/
def IsSaveAt (height : UInt64) : Exchange → Prop
  | ⟨.ledger (.saveUnscanned r), _⟩ => r.height = height
  | _ => False

/-- What a batch of a height asks: lookups, deliveries, and records at its height. -/
def InBatch (height : UInt64) (x : Exchange) : Prop :=
  x.IsLookup ∨ x.IsDelivery ∨ x.IsSaveAt height

/-- The record that an exchange saved. -/
def saved? : Exchange → Option UnscannedRecord
  | ⟨.ledger (.saveUnscanned r), .ok ()⟩ => some r
  | _ => none

theorem IsLookup.ledger_ok {x : Exchange} (h : x.IsLookup) : ¬ x.LedgerFailed := by
  obtain ⟨q, a⟩ := x
  cases q <;> simp_all [IsLookup, LedgerFailed]

theorem IsDelivery.ledger_ok {x : Exchange} (h : x.IsDelivery) : ¬ x.LedgerFailed := by
  obtain ⟨q, a⟩ := x
  cases q <;> simp_all [IsDelivery, LedgerFailed]

theorem IsLookup.saved?_eq_none {x : Exchange} (h : x.IsLookup) : x.saved? = none := by
  obtain ⟨q, a⟩ := x
  cases q <;> simp_all [IsLookup, saved?]

theorem IsDelivery.saved?_eq_none {x : Exchange} (h : x.IsDelivery) : x.saved? = none := by
  obtain ⟨q, a⟩ := x
  cases q <;> simp_all [IsDelivery, saved?]

theorem eq_of_saved? {x : Exchange} {r : UnscannedRecord} (h : x.saved? = some r) :
    x = ⟨.ledger (.saveUnscanned r), .ok ()⟩ := by
  unfold saved? at h
  split at h
  · obtain rfl := Option.some.inj h
    rfl
  · cases h

end Exchange

open Exchange (saved?)

theorem mem_saved {tr : List Exchange} {r : UnscannedRecord} :
    r ∈ readOff saved? tr ↔ (⟨.ledger (.saveUnscanned r), .ok ()⟩ : Exchange) ∈ tr := by
  constructor
  · intro hr
    obtain ⟨x, hx, hsaved⟩ := mem_readOff.mp hr
    exact Exchange.eq_of_saved? hsaved ▸ hx
  · exact fun hx => mem_readOff.mpr ⟨_, hx, rfl⟩

/-! ## Lookups -/

/-- The fee of a transaction was asked for, if an owned sender pays it. -/
def FeeKnown (owners : Owners) (tx : Transaction) (fee : Option UInt64) (tr : List Exchange) :
    Prop :=
  match feePayer owners tx with
  | none => fee = none
  | some _ => ∃ f, fee = some f ∧ (⟨.chain (.fee tx.feeKind tx.height), .ok f⟩ : Exchange) ∈ tr

namespace Batch

/-- The chain source served a transaction, from the mempool only if the batch is the mempool's. -/
def Found (b : Batch) (txid : String) (tx : Transaction) (tr : List Exchange) : Prop :=
  (b.isMempool = true ∧ (⟨.chain (.mempoolTransaction txid), .ok tx⟩ : Exchange) ∈ tr) ∨
    (⟨.chain (.transaction txid), Lookup.found tx⟩ : Exchange) ∈ tr

/-- A transaction of a batch was fetched and classified, and these are its data by owner. -/
def Classified (c : Classifier) (b : Batch) (txid : String) (data : OwnerMap ExtractedData)
    (tr : List Exchange) : Prop :=
  ∃ tx fee, b.Found txid tx tr ∧ FeeKnown c.owners (tx.atHeight b.height) fee tr ∧
    data = classify c.asset c.owners b.blockHash fee (tx.atHeight b.height)

end Batch

/-- Every sink took the data of every owner. -/
def Taken (sinks : Nat) (data : OwnerMap ExtractedData) (tr : List Exchange) : Prop :=
  ∀ entry ∈ data, ∀ sink < sinks, (⟨.deliver sink entry.1 entry.2, .ok ()⟩ : Exchange) ∈ tr

/-- A transaction of a batch was fetched and classified, and every sink took what it means for
every owner. -/
def Batch.Delivered (c : Classifier) (sinks : Nat) (b : Batch) (txid : String)
    (tr : List Exchange) : Prop :=
  ∃ data, b.Classified c txid data tr ∧ Taken sinks data tr

theorem FeeKnown.mono {owners : Owners} {tx : Transaction} {fee : Option UInt64}
    {tr tr' : List Exchange} (h : FeeKnown owners tx fee tr) (hsub : tr ⊆ tr') :
    FeeKnown owners tx fee tr' := by
  unfold FeeKnown at h ⊢
  split at h
  · exact h
  · obtain ⟨f, hf, hmem⟩ := h
    exact ⟨f, hf, hsub hmem⟩

theorem Batch.Classified.mono {c : Classifier} {b : Batch} {txid : String}
    {data : OwnerMap ExtractedData} {tr tr' : List Exchange} (h : b.Classified c txid data tr)
    (hsub : tr ⊆ tr') : b.Classified c txid data tr' := by
  obtain ⟨tx, fee, hfound, hfee, hdata⟩ := h
  exact ⟨tx, fee, hfound.imp (fun h => ⟨h.1, hsub h.2⟩) (fun h => hsub h), hfee.mono hsub, hdata⟩

theorem Taken.mono {sinks : Nat} {data : OwnerMap ExtractedData} {tr tr' : List Exchange}
    (h : Taken sinks data tr) (hsub : tr ⊆ tr') : Taken sinks data tr' :=
  fun entry hentry sink hsink => hsub (h entry hentry sink hsink)

theorem Batch.Delivered.mono {c : Classifier} {sinks : Nat} {b : Batch} {txid : String}
    {tr tr' : List Exchange} (h : b.Delivered c sinks txid tr) (hsub : tr ⊆ tr') :
    b.Delivered c sinks txid tr' := by
  obtain ⟨data, hclass, htaken⟩ := h
  exact ⟨data, hclass.mono hsub, htaken.mono hsub⟩

theorem lookUp_yields (b : Batch) (txid : String) :
    (lookUp txid b.isMempool).Yields fun tr answer =>
      (∀ x ∈ tr, x.IsLookup) ∧ ∀ tx, answer = .found tx → b.Found txid tx tr := by
  have hcommitted : (Script.chain (.transaction txid)).Yields fun tr answer =>
      (∀ x ∈ tr, x.IsLookup) ∧ ∀ tx, answer = .found tx →
        (⟨.chain (.transaction txid), Lookup.found tx⟩ : Exchange) ∈ tr :=
    Yields.query fun answer => ⟨by simp [Exchange.IsLookup], by
      rintro tx rfl
      exact List.mem_singleton_self _⟩
  unfold lookUp
  by_cases hmem : b.isMempool = true
  · rw [if_pos hmem]
    refine Yields.bind (P := fun tr answer => tr = [⟨.chain (.mempoolTransaction txid), answer⟩])
      (Yields.query fun answer => rfl) ?_
    rintro _ answer rfl
    cases answer with
    | ok tx =>
      refine Yields.done ⟨by simp [Exchange.IsLookup], ?_⟩
      rintro _ ⟨⟩
      exact .inl ⟨hmem, by simp⟩
    | error cause =>
      refine hcommitted.mono ?_
      rintro tr answer ⟨hlook, hfound⟩
      refine ⟨by simpa [Exchange.IsLookup] using hlook, fun tx htx => .inr ?_⟩
      exact List.mem_append_right _ (hfound tx htx)
  · rw [if_neg hmem]
    exact hcommitted.mono fun tr answer h => ⟨h.1, fun tx htx => .inr (h.2 tx htx)⟩

theorem lookUpFee_yields (owners : Owners) (tx : Transaction) :
    (lookUpFee owners tx).Yields fun tr answer =>
      (∀ x ∈ tr, x.IsLookup) ∧ ∀ fee, answer = .ok fee → FeeKnown owners tx fee tr := by
  unfold lookUpFee
  cases hpayer : feePayer owners tx with
  | none =>
    refine Yields.done ⟨by simp, ?_⟩
    rintro fee ⟨⟩
    simp [FeeKnown, hpayer]
  | some payer =>
    refine Yields.bind
      (P := fun tr answer => tr = [⟨.chain (.fee tx.feeKind tx.height), answer⟩])
      (Yields.query fun answer => rfl) ?_
    rintro _ answer rfl
    cases answer with
    | ok f =>
      refine Yields.done ⟨by simp [Exchange.IsLookup], ?_⟩
      rintro fee ⟨⟩
      simp [FeeKnown, hpayer]
    | error cause =>
      refine Yields.done ⟨by simp [Exchange.IsLookup], ?_⟩
      rintro fee ⟨⟩

/-- The result of a lookup names its transaction, and data in it come from what was looked up. -/
def Extraction.From (c : Classifier) (b : Batch) (txid : String) (e : Extraction)
    (tr : List Exchange) : Prop :=
  e.txid = txid ∧ ∀ data, e.outcome = .ok data → b.Classified c txid data tr

theorem extractOne_yields (c : Classifier) (b : Batch) (txid : String) :
    (extractOne c b.height b.blockHash b.isMempool txid).Yields fun tr e =>
      (∀ x ∈ tr, x.IsLookup) ∧ e.From c b txid tr := by
  unfold extractOne
  refine Yields.bind (lookUp_yields b txid) ?_
  rintro tr answer ⟨hlook, hfound⟩
  cases answer with
  | failed cause => exact Yields.done ⟨by simpa using hlook, rfl, by rintro data ⟨⟩⟩
  | crashed detail => exact Yields.done ⟨by simpa using hlook, rfl, by rintro data ⟨⟩⟩
  | found tx =>
    refine Yields.bind (lookUpFee_yields c.owners (tx.atHeight b.height)) ?_
    rintro tr' fee ⟨hlook', hfee⟩
    have hall : ∀ x ∈ tr ++ (tr' ++ []), x.IsLookup := by
      intro x hx
      rw [List.append_nil] at hx
      exact (List.mem_append.mp hx).elim (hlook x) (hlook' x)
    cases fee with
    | error cause => exact Yields.done ⟨hall, rfl, by rintro data ⟨⟩⟩
    | ok fee =>
      refine Yields.done ⟨hall, rfl, ?_⟩
      rintro data ⟨⟩
      refine ⟨tx, fee, ?_, (hfee fee rfl).mono (by simp), rfl⟩
      exact (hfound tx rfl).imp (fun h => ⟨h.1, List.mem_append_left _ h.2⟩)
        (fun h => List.mem_append_left _ h)

theorem Extraction.From.mono {c : Classifier} {b : Batch} {txid : String} {e : Extraction}
    {tr tr' : List Exchange} (h : e.From c b txid tr) (hsub : tr ⊆ tr') : e.From c b txid tr' :=
  ⟨h.1, fun data hdata => (h.2 data hdata).mono hsub⟩

theorem extractAll_yields (c : Classifier) (b : Batch) :
    ∀ txids : List String, (extractAll c b txids).Yields fun tr results =>
      (∀ x ∈ tr, x.IsLookup) ∧ List.Forall₂ (fun txid e => e.From c b txid tr) txids results
  | [] => Yields.done ⟨by simp, .nil⟩
  | txid :: rest => by
    unfold extractAll
    refine Yields.bind (extractOne_yields c b txid) ?_
    rintro tr first ⟨hlook, hfirst⟩
    refine Yields.bind (extractAll_yields c b rest) ?_
    rintro tr' others ⟨hlook', hothers⟩
    refine Yields.done ⟨?_, .cons (hfirst.mono (by simp)) ?_⟩
    · intro x hx
      rw [List.append_nil] at hx
      exact (List.mem_append.mp hx).elim (hlook x) (hlook' x)
    · exact hothers.imp fun _ _ h => h.mono (by simp)

/-! ## Handing results over -/

theorem deliveryOrder_perm (results : List Extraction) : (deliveryOrder results).Perm results := by
  have hcrash : (fun e : Extraction => e.crash.isSome) = fun e => !e.crash.isNone := by
    funext e
    cases e.crash <;> rfl
  unfold deliveryOrder
  rw [hcrash]
  exact List.filter_append_perm _ _

theorem mem_deliveryOrder {results : List Extraction} {e : Extraction} :
    e ∈ deliveryOrder results ↔ e ∈ results :=
  (deliveryOrder_perm results).mem_iff

/-- **The queue between the workers and the consumer does not show.**  However the workers' pushes
and the consumer's pops interleave, a consumer that counts one result for each transaction gets the
results of a batch in the order in which they were put in. -/
theorem extractAll_handedOver (c : Classifier) (b : Batch) :
    (extractAll c b b.txids).Yields fun _ results =>
      ∀ steps : List (Handoff.Step Extraction), Handoff.pushed steps = deliveryOrder results →
        b.txids.length ≤ (Handoff.taken steps).length →
          Handoff.taken steps = deliveryOrder results := by
  refine Yields.mono (extractAll_yields c b b.txids) fun tr results h steps hpushed hcount => ?_
  have hlength : (Handoff.pushed steps).length = b.txids.length := by
    rw [hpushed, (deliveryOrder_perm results).length_eq, h.2.length_eq]
  rw [← hpushed]
  exact Handoff.taken_eq_pushed (hlength ▸ hcount)

/-! ## Deliveries -/

theorem offer_yields (owner : OwnerKey) (data : ExtractedData) :
    ∀ sinks : List Nat, (offer owner data sinks).Yields fun tr refusal =>
      (∀ x ∈ tr, x.IsDelivery) ∧ (refusal = none →
        ∀ sink ∈ sinks, (⟨.deliver sink owner data, .ok ()⟩ : Exchange) ∈ tr)
  | [] => Yields.done ⟨by simp, by simp⟩
  | sink :: rest => by
    unfold offer
    refine Yields.bind (P := fun tr answer => tr = [⟨.deliver sink owner data, answer⟩])
      (Yields.query fun answer => rfl) ?_
    rintro _ answer rfl
    refine Yields.bind (offer_yields owner data rest) ?_
    rintro tr later ⟨hdel, htaken⟩
    have hall : ∀ x ∈ [⟨.deliver sink owner data, answer⟩] ++ (tr ++ []),
        Exchange.IsDelivery x := by
      simpa [Exchange.IsDelivery] using hdel
    cases answer with
    | error cause => exact Yields.done ⟨hall, by simp⟩
    | ok u =>
      refine Yields.done ⟨hall, fun hnone other hother => ?_⟩
      rcases List.mem_cons.mp hother with rfl | hother
      · simp
      · have := htaken hnone other hother
        simp [this]

theorem deliver_yields (sinks : Nat) :
    ∀ data : OwnerMap ExtractedData, (deliver sinks data).Yields fun tr answer =>
      (∀ x ∈ tr, x.IsDelivery) ∧ (answer.2 = none → Taken sinks data tr)
  | [] => Yields.done ⟨by simp, fun _ _ hentry => by cases hentry⟩
  | (owner, d) :: rest => by
    unfold deliver
    refine Yields.bind (offer_yields owner d (List.range sinks)) ?_
    rintro tr refusal ⟨hdel, htaken⟩
    refine Yields.bind (deliver_yields sinks rest) ?_
    rintro tr' ⟨delivered, failure⟩ ⟨hdel', htaken'⟩
    have hall : ∀ x ∈ tr ++ (tr' ++ []), x.IsDelivery := by
      intro x hx
      rw [List.append_nil] at hx
      exact (List.mem_append.mp hx).elim (hdel x) (hdel' x)
    cases refusal with
    | some cause => exact Yields.done ⟨hall, by simp⟩
    | none =>
      refine Yields.done ⟨hall, fun hnone entry hentry sink hsink => ?_⟩
      rcases List.mem_cons.mp hentry with rfl | hentry
      · exact List.mem_append_left _ (htaken rfl sink (List.mem_range.mpr hsink))
      · have := htaken' hnone entry hentry sink hsink
        simp [this]

/-- A result holds data, and every sink took all of them. -/
def Extraction.Settled (sinks : Nat) (e : Extraction) (tr : List Exchange) : Prop :=
  ∃ data, e.outcome = .ok data ∧ Taken sinks data tr

theorem Extraction.Settled.mono {sinks : Nat} {e : Extraction} {tr tr' : List Exchange}
    (h : e.Settled sinks tr) (hsub : tr ⊆ tr') : e.Settled sinks tr' := by
  obtain ⟨data, hdata, htaken⟩ := h
  exact ⟨data, hdata, htaken.mono hsub⟩

theorem settle_yields (sinks : Nat) (e : Extraction) :
    (settle sinks e).Yields fun tr answer =>
      (∀ x ∈ tr, x.IsDelivery) ∧ (answer.2 = none → e.Settled sinks tr) := by
  unfold settle Extraction.Settled
  cases e.outcome with
  | error reason => exact Yields.done ⟨by simp, by simp⟩
  | ok data =>
    exact (deliver_yields sinks data).mono fun tr answer h =>
      ⟨h.1, fun hnone => ⟨data, rfl, h.2 hnone⟩⟩

/-! ## Records -/

/-- The exchanges of results that were all settled or recorded at a height: the given transactions
are those of the saved records. -/
structure Recorded (height : UInt64) (failed : List String) (tr : List Exchange) : Prop where
  kinds : ∀ x ∈ tr, x.InBatch height
  saves : ∀ x ∈ tr, ¬ x.LedgerFailed
  failed_eq : (readOff saved? tr).map UnscannedRecord.txid = failed
  own_id : ∀ r ∈ readOff saved? tr, r = .of height r.txid r.reason

/-- The exchanges of results of which one failed and could not be recorded. -/
def Unrecorded (height : UInt64) (cause : LedgerError) (tr : List Exchange) : Prop :=
  ∃ before r, tr = before ++ [⟨.ledger (.saveUnscanned r), .error cause⟩] ∧
    (∀ x ∈ tr, x.InBatch height) ∧ ∀ x ∈ before, ¬ x.LedgerFailed

theorem Recorded.of_quiet {height : UInt64} {tr : List Exchange}
    (h : ∀ x ∈ tr, x.IsLookup ∨ x.IsDelivery) : Recorded height [] tr := by
  have hsaved : readOff saved? tr = [] := readOff_eq_nil fun x hx =>
    (h x hx).elim Exchange.IsLookup.saved?_eq_none Exchange.IsDelivery.saved?_eq_none
  refine ⟨fun x hx => ?_, fun x hx => ?_, by simp [hsaved], by simp [hsaved]⟩
  · exact (h x hx).imp_right .inl
  · exact (h x hx).elim Exchange.IsLookup.ledger_ok Exchange.IsDelivery.ledger_ok

theorem Recorded.append {height : UInt64} {failed failed' : List String} {tr tr' : List Exchange}
    (h : Recorded height failed tr) (h' : Recorded height failed' tr') :
    Recorded height (failed ++ failed') (tr ++ tr') := by
  refine ⟨fun x hx => ?_, fun x hx => ?_, ?_, fun r hr => ?_⟩
  · exact (List.mem_append.mp hx).elim (h.kinds x) (h'.kinds x)
  · exact (List.mem_append.mp hx).elim (h.saves x) (h'.saves x)
  · rw [readOff_append, List.map_append, h.failed_eq, h'.failed_eq]
  · rw [readOff_append] at hr
    exact (List.mem_append.mp hr).elim (h.own_id r) (h'.own_id r)

theorem Recorded.save (height : UInt64) (txid reason : String) :
    Recorded height [txid]
      [⟨.ledger (.saveUnscanned (.of height txid reason)), .ok ()⟩] := by
  refine ⟨fun x hx => ?_, fun x hx => ?_, rfl, fun r hr => ?_⟩
  · rw [List.mem_singleton.mp hx]
    exact .inr (.inr rfl)
  · rw [List.mem_singleton.mp hx]
    exact id
  · rw [List.mem_singleton.mp hr]
    rfl

theorem Unrecorded.behind {height : UInt64} {cause : LedgerError} {failed : List String}
    {tr tr' : List Exchange} (h : Recorded height failed tr) (h' : Unrecorded height cause tr') :
    Unrecorded height cause (tr ++ tr') := by
  obtain ⟨before, r, rfl, hkinds, hsaves⟩ := h'
  refine ⟨tr ++ before, r, by rw [List.append_assoc], fun x hx => ?_, fun x hx => ?_⟩
  · exact (List.mem_append.mp hx).elim (h.kinds x) (hkinds x)
  · exact (List.mem_append.mp hx).elim (h.saves x) (hsaves x)

/-- **Every result is settled or recorded.**  The answer lists the transactions of the saved
records, in order; it is an error exactly if the last exchange is a record that was not saved. -/
theorem settleAll_yields (sinks : Nat) (height : UInt64) :
    ∀ results : List Extraction, (settleAll sinks height results).Yields fun tr answer =>
      match answer with
      | .error cause => Unrecorded height cause tr
      | .ok (_, failed) =>
        Recorded height failed tr ∧ ∀ e ∈ results, e.Settled sinks tr ∨ e.txid ∈ failed
  | [] => Yields.done ⟨.of_quiet (by simp), by simp⟩
  | e :: rest => by
    unfold settleAll
    refine Yields.bind (settle_yields sinks e) ?_
    rintro tr ⟨delivered, failure⟩ ⟨hdel, hsettled⟩
    have hquiet : Recorded height [] tr := .of_quiet fun x hx => .inr (hdel x hx)
    cases failure with
    | none =>
      refine Yields.bind (settleAll_yields sinks height rest) ?_
      rintro tr' (cause | ⟨others, failed⟩) h
      · exact Yields.done (by simpa using Unrecorded.behind hquiet h)
      · refine Yields.done ⟨by simpa using hquiet.append h.1, fun e' he' => ?_⟩
        rcases List.mem_cons.mp he' with rfl | he'
        · exact .inl ((hsettled rfl).mono (by simp))
        · exact (h.2 e' he').imp_left fun h' => h'.mono (by simp)
    | some reason =>
      refine Yields.bind
        (P := fun tr answer =>
          tr = [⟨.ledger (.saveUnscanned (.of height e.txid reason)), answer⟩])
        (Yields.query fun answer => rfl) ?_
      rintro _ answer rfl
      cases answer with
      | error cause =>
        refine Yields.done (Unrecorded.behind hquiet ⟨[], _, rfl, ?_, by simp⟩)
        intro x hx
        rw [List.mem_singleton.mp hx]
        exact .inr (.inr rfl)
      | ok u =>
        have hsave := hquiet.append (Recorded.save height e.txid reason)
        refine Yields.bind (settleAll_yields sinks height rest) ?_
        rintro tr' (cause | ⟨others, failed⟩) h
        · exact Yields.done (by simpa using Unrecorded.behind hsave h)
        · refine Yields.done ⟨by simpa using hsave.append h.1, fun e' he' => ?_⟩
          rcases List.mem_cons.mp he' with rfl | he'
          · exact .inr List.mem_cons_self
          · exact (h.2 e' he').imp (fun h' => h'.mono (by simp)) (List.mem_cons_of_mem _)

/-! ## Whole batches -/

/-- The batch that a block is extracted with. -/
def Block.batch (b : Block) : Batch := .block b.height b.hash b.transactions

/-- Every transaction of a batch is delivered or among the failed ones, and those are recorded. -/
def Batch.Accounted (c : Classifier) (sinks : Nat) (b : Batch) (failed : List String)
    (tr : List Exchange) : Prop :=
  Recorded b.height failed tr ∧ ∀ txid ∈ b.txids, b.Delivered c sinks txid tr ∨ txid ∈ failed

/-- A result that is settled stands for a transaction that is delivered. -/
theorem Extraction.Settled.delivered {c : Classifier} {sinks : Nat} {b : Batch} {txid : String}
    {e : Extraction} {tr tr' : List Exchange} (hfrom : e.From c b txid tr)
    (h : e.Settled sinks tr') : b.Delivered c sinks txid (tr ++ tr') := by
  obtain ⟨data, hdata, htaken⟩ := h
  exact ⟨data, (hfrom.2 data hdata).mono (by simp), htaken.mono (by simp)⟩

theorem accounted_of_settled {c : Classifier} {sinks : Nat} {b : Batch} {results : List Extraction}
    {failed : List String} {tr tr' : List Exchange} (hlook : ∀ x ∈ tr, x.IsLookup)
    (hfrom : List.Forall₂ (fun txid e => e.From c b txid tr) b.txids results)
    (hrec : Recorded b.height failed tr')
    (hsettled : ∀ e ∈ results, e.Settled sinks tr' ∨ e.txid ∈ failed) :
    b.Accounted c sinks failed (tr ++ tr') := by
  refine ⟨(Recorded.of_quiet fun x hx => .inl (hlook x hx)).append hrec, fun txid htxid => ?_⟩
  obtain ⟨i, hi, rfl⟩ := List.mem_iff_getElem.mp htxid
  have hi' : i < results.length := hfrom.length_eq ▸ hi
  have hown : results[i].From c b b.txids[i] tr := hfrom.get hi hi'
  rcases hsettled _ (List.getElem_mem hi') with h | h
  · exact .inl (h.delivered hown)
  · exact .inr (hown.1 ▸ h)

theorem extractBatch_yields (c : Classifier) (sinks : Nat) (b : Batch) :
    (extractBatch c sinks b).Yields fun tr answer =>
      match answer with
      | .ok _ => b.Accounted c sinks [] tr
      | .error (.incomplete _ failed _) => b.Accounted c sinks failed tr
      | .error (.ledger cause) => Unrecorded b.height cause tr := by
  unfold extractBatch
  split
  · rename_i hempty
    have hnil : b.txids = [] := List.isEmpty_iff.mp hempty
    exact Yields.done ⟨.of_quiet (by simp), by simp [hnil]⟩
  · refine Yields.bind (extractAll_yields c b b.txids) ?_
    rintro tr results ⟨hlook, hfrom⟩
    refine Yields.bind (settleAll_yields sinks b.height (deliveryOrder results)) ?_
    have hquiet : Recorded b.height [] tr := .of_quiet fun x hx => .inl (hlook x hx)
    rintro tr' (cause | ⟨delivered, failed⟩) h
    · exact Yields.done (by simpa using Unrecorded.behind hquiet h)
    · have hacc : b.Accounted c sinks failed (tr ++ (tr' ++ [])) := by
        rw [List.append_nil]
        exact accounted_of_settled hlook hfrom h.1 fun e he => h.2 e (mem_deliveryOrder.mpr he)
      cases failed with
      | nil => exact Yields.done hacc
      | cons txid rest => exact Yields.done hacc

/-- **A batch accounts for each of its transactions.**  It answers the failed ones, which are
recorded, and it halts exactly if one of them could not be recorded. -/
theorem runBatch_ensures (e : Engine) (b : Batch) :
    (e.runBatch b).Ensures fun tr r =>
      match r with
      | .ok failed => b.Accounted e.classifier e.sinks failed tr
      | .error h => ∃ cause, h = .failed (.ledger cause) ∧ Unrecorded b.height cause tr := by
  unfold Engine.runBatch
  refine Yields.then (extractBatch_yields e.classifier e.sinks b) ?_
  rintro tr ((⟨height, failed, total⟩ | cause) | summary) h
  all_goals simp only [pure_eq, Script.fail, Ensures, List.append_nil]
  · exact h
  · exact ⟨cause, rfl, h⟩
  · exact h

/-- Only transactions of the results can fail. -/
theorem settleAll_failed (sinks : Nat) (height : UInt64) :
    ∀ results : List Extraction, (settleAll sinks height results).Yields fun _ answer =>
      ∀ delivered failed, answer = .ok (delivered, failed) →
        failed ⊆ results.map Extraction.txid
  | [] => by
    refine Yields.done ?_
    rintro delivered failed ⟨⟩
    simp
  | e :: rest => by
    unfold settleAll
    refine Yields.bind (settle_yields sinks e) ?_
    rintro tr ⟨delivered, failure⟩ -
    cases failure with
    | none =>
      refine Yields.bind (settleAll_failed sinks height rest) ?_
      rintro tr' (cause | ⟨others, failed⟩) h
      · exact Yields.done (by rintro _ _ ⟨⟩)
      · refine Yields.done ?_
        rintro _ _ ⟨⟩
        exact List.subset_cons_of_subset _ (h others failed rfl)
    | some reason =>
      refine Yields.bind (P := fun _ _ => True) (Yields.query fun answer => trivial) ?_
      rintro tr' (cause | ⟨⟩) -
      · exact Yields.done (by rintro _ _ ⟨⟩)
      · refine Yields.bind (settleAll_failed sinks height rest) ?_
        rintro tr'' (cause | ⟨others, failed⟩) h
        · exact Yields.done (by rintro _ _ ⟨⟩)
        · refine Yields.done ?_
          rintro _ _ ⟨⟩
          exact List.cons_subset_cons _ (h others failed rfl)

theorem txids_of_from {c : Classifier} {b : Batch} {txids : List String}
    {results : List Extraction} {tr : List Exchange}
    (h : List.Forall₂ (fun txid e => e.From c b txid tr) txids results) :
    results.map Extraction.txid = txids := by
  induction h with
  | nil => rfl
  | cons hfrom _ ih => rw [List.map_cons, hfrom.1, ih]

/-- Only transactions of a batch can fail in it. -/
theorem runBatch_failed (e : Engine) (b : Batch) :
    (e.runBatch b).Ensures fun _ r => ∀ failed, r = .ok failed → failed ⊆ b.txids := by
  have hbatch : (extractBatch e.classifier e.sinks b).Yields fun _ answer =>
      ∀ height failed total, answer = .error (.incomplete height failed total) →
        failed ⊆ b.txids := by
    unfold extractBatch
    split
    · exact Yields.done (by rintro _ _ _ ⟨⟩)
    · refine Yields.bind (extractAll_yields e.classifier b b.txids) ?_
      rintro tr results ⟨-, hfrom⟩
      refine Yields.bind (settleAll_failed e.sinks b.height (deliveryOrder results)) ?_
      rintro tr' (cause | ⟨delivered, failed⟩) hfailed
      · exact Yields.done (by rintro _ _ _ ⟨⟩)
      · have hsubset : failed ⊆ b.txids := by
          intro txid htxid
          obtain ⟨result, hresult, rfl⟩ := List.mem_map.mp (hfailed delivered failed rfl htxid)
          rw [← txids_of_from hfrom]
          exact List.mem_map_of_mem (mem_deliveryOrder.mp hresult)
        cases failed with
        | nil => exact Yields.done (by rintro _ _ _ ⟨⟩)
        | cons txid rest =>
          refine Yields.done ?_
          rintro _ _ _ ⟨⟩
          exact hsubset
  unfold Engine.runBatch
  refine Yields.then hbatch ?_
  rintro tr ((⟨height, failed, total⟩ | cause) | summary) h
  · rintro _ ⟨⟩
    exact h height failed total rfl
  · rintro _ ⟨⟩
  · rintro _ ⟨⟩
    exact List.nil_subset _

theorem Recorded.quiet {height : UInt64} {failed : List String} {tr : List Exchange}
    (h : Recorded height failed tr) : (TraceLaw.quiet (·.InBatch height)).Holds tr none := by
  refine ⟨⟨h.kinds, fun before op cause after heq => ?_⟩, by simp⟩
  exact absurd trivial (h.saves ⟨.ledger op, .error cause⟩ (by simp [heq]))

theorem Unrecorded.quiet {height : UInt64} {cause : LedgerError} {tr : List Exchange}
    (h : Unrecorded height cause tr) :
    (TraceLaw.quiet (·.InBatch height)).Holds tr (some (.failed (.ledger cause))) := by
  obtain ⟨before, r, rfl, hkinds, hsaves⟩ := h
  have hbefore : TraceLaw.ledgerFailsLast.Holds before none := fun past op cause' after heq =>
    absurd trivial (hsaves ⟨.ledger op, .error cause'⟩ (by simp [heq]))
  refine ⟨⟨hkinds, TraceLaw.ledgerFailsLast.append hbefore fun past op cause' after heq => ?_⟩, ?_⟩
  · obtain ⟨hx, rfl⟩ := singleton_eq_append_cons heq
    cases hx
    exact ⟨rfl, rfl⟩
  · exact fun _ => ⟨_, List.mem_append_right _ (List.mem_singleton_self _), trivial⟩

theorem runBatch_quiet (e : Engine) (b : Batch) : (e.runBatch b).Quiet (·.InBatch b.height) := by
  refine (runBatch_ensures e b).mono ?_
  rintro tr (x | failed) h
  · obtain ⟨cause, rfl, hun⟩ := h
    exact hun.quiet
  · exact h.1.quiet

end WalletScan
