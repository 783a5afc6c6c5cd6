import WalletScan.Proofs.BatchAccounts
import WalletScan.Proofs.RetryPass

/-!
# Permanent failures

A record keeps why its transaction failed as a text, and a purge goes by how the text begins.  Other
texts are part of these texts: messages of the chain source, of sinks and of workers that died, and
the names of owners.  None of them can bring a record under the purge, or keep it from it.

* `message_permanent_iff`, `feeReason_not_permanent`, `deliveryReason_not_permanent`,
  `crashReason_not_permanent` — which texts begin so, whatever they carry.
* `Inquiry.Unknown` — the lookup that decides over a transaction answered that it is unknown.
* `Handling.Fits.permanent_iff` — a record is permanent exactly if this is what happened.
* `mem_purged`, `retry_opens` — what a purge leaves of a ledger of either kind, and that a retry
  pass begins with it.
* `purge_exact` — every record that a batch saves, and what the next purge does with it.

Specification: sections 7 and 8, the purge of permanent failures.
-/

set_option autoImplicit false

namespace WalletScan

open Script
open Exchange (saved?)

/-! ## How reasons begin -/

/-- A reason says that a transaction is unknown. -/
def Permanent (reason : String) : Prop := beginsWith unknownTransactionLead reason = true

theorem Permanent.head?_eq {reason : String} (h : Permanent reason) :
    reason.toList.head? = some '[' := by
  obtain ⟨rest, hrest⟩ := List.isPrefixOf_iff_prefix.mp h
  rw [← hrest]
  rfl

/-- A text that another one follows does not take its beginning from it. -/
theorem not_permanent_append {lead : String} {c : Char} (hlead : lead.toList.head? = some c)
    (hc : c ≠ '[') (text : String) : ¬ Permanent (lead ++ text) := by
  intro h
  have hhead := h.head?_eq
  rw [String.toList_append, List.head?_append, hlead] at hhead
  exact hc (Option.some.inj hhead)

theorem message_permanent_iff {cause : ChainError} :
    Permanent cause.message ↔ ∃ txid, cause = .transactionNotFound txid := by
  constructor
  · intro h
    cases cause with
    | transactionNotFound txid => exact ⟨txid, rfl⟩
    | blockNotFound height =>
      have hmessage : (ChainError.blockNotFound height).message =
          "Block at height " ++ (toString height.toNat ++ " not found") := String.append_assoc ..
      exact absurd (hmessage ▸ h) (not_permanent_append rfl (by decide) _)
    | unavailable detail => exact absurd h (not_permanent_append rfl (by decide) _)
    | malformed detail => exact absurd h (not_permanent_append rfl (by decide) _)
    | unsupported operation => exact absurd h (not_permanent_append rfl (by decide) _)
  · rintro ⟨txid, rfl⟩
    unfold Permanent beginsWith ChainError.message
    rw [List.isPrefixOf_iff_prefix, String.toList_append, String.toList_append, List.append_assoc]
    exact List.prefix_append _ _

theorem feeReason_not_permanent (cause : ChainError) : ¬ Permanent (feeReason cause) :=
  not_permanent_append rfl (by decide) _

theorem deliveryReason_not_permanent (owner : String) (cause : NotifyError) :
    ¬ Permanent (deliveryReason owner cause) := by
  unfold deliveryReason
  rw [String.append_assoc, String.append_assoc]
  exact not_permanent_append rfl (by decide) _

theorem crashReason_not_permanent (detail : String) : ¬ Permanent (crashReason detail) := by
  unfold crashReason
  rw [String.append_assoc]
  exact not_permanent_append rfl (by decide) _

/-! ## The decisive lookup -/

/-- The lookup of a transaction among the committed ones answered that it is unknown.  In a batch of
the mempool it is asked for only where the mempool does not serve the transaction. -/
def Inquiry.Unknown (q : Inquiry) : Prop :=
  ∃ id, (⟨.chain (.transaction q.found.txid), Lookup.failed (.transactionNotFound id)⟩ : Exchange) ∈
    q.asked

section

variable {c : Classifier} {b : Batch} {txid : String} {tr : List Exchange}

/-- A search asks about its own transaction, and comes to what is answered last. -/
theorem Searched.asked_eq {txid' : String} {answer other : Lookup} (h : Searched b txid tr answer)
    (hasked : (⟨.chain (.transaction txid'), other⟩ : Exchange) ∈ tr) :
    txid' = txid ∧ other = answer := by
  cases h with
  | pending hmem => simp at hasked
  | fallback hmem =>
    rcases List.mem_cons.mp hasked with heq | hasked
    · cases heq
    · cases List.mem_singleton.mp hasked
      exact ⟨rfl, rfl⟩
  | committed hmem =>
    cases List.mem_singleton.mp hasked
    exact ⟨rfl, rfl⟩

theorem Searched.asked_of_failed {cause : ChainError} (h : Searched b txid tr (.failed cause)) :
    (⟨.chain (.transaction txid), Lookup.failed cause⟩ : Exchange) ∈ tr := by
  cases h <;> simp

theorem Charged.not_transaction {owners : Owners} {tx : Transaction}
    {fee : Except ChainError (Option UInt64)} (h : Charged owners tx tr fee) (txid : String)
    (answer : Lookup) : (⟨.chain (.transaction txid), answer⟩ : Exchange) ∉ tr := by
  cases h <;> simp

/-- The questions about the fee of a transaction are none about a transaction. -/
theorem Searched.asked_eq_append {txid' : String} {answer other : Lookup} {owners : Owners}
    {tx : Transaction} {tr' : List Exchange} {fee : Except ChainError (Option UInt64)}
    (h : Searched b txid tr answer) (hfee : Charged owners tx tr' fee)
    (hasked : (⟨.chain (.transaction txid'), other⟩ : Exchange) ∈ tr ++ tr') :
    txid' = txid ∧ other = answer := by
  rcases List.mem_append.mp hasked with hasked | hasked
  · exact h.asked_eq hasked
  · exact absurd hasked (hfee.not_transaction _ _)

theorem Examined.asked_txid {txid' : String} {answer : Lookup} {e : Extraction}
    (h : Examined c b txid tr e)
    (hasked : (⟨.chain (.transaction txid'), answer⟩ : Exchange) ∈ tr) : txid' = txid := by
  cases h with
  | unfound hsearched => exact (hsearched.asked_eq hasked).1
  | died hsearched => exact (hsearched.asked_eq hasked).1
  | uncharged hsearched hfee => exact (hsearched.asked_eq_append hfee hasked).1
  | extracted hsearched hfee => exact (hsearched.asked_eq_append hfee hasked).1

/-- A transaction is unknown if there are no data of it and the reason says so. -/
theorem Examined.unknown_iff {e : Extraction} (h : Examined c b txid tr e) :
    (∃ id,
        (⟨.chain (.transaction txid), Lookup.failed (.transactionNotFound id)⟩ : Exchange) ∈ tr) ↔
      ∃ reason, e.outcome = .error reason ∧ Permanent reason := by
  cases h with
  | @unfound _ cause hsearched =>
    simp only [Except.error.injEq, exists_eq_left', message_permanent_iff]
    constructor
    · rintro ⟨id, hasked⟩
      exact ⟨id, (Lookup.failed.inj (hsearched.asked_eq hasked).2).symm⟩
    · rintro ⟨id, rfl⟩
      exact ⟨id, hsearched.asked_of_failed⟩
  | @died _ detail hsearched =>
    simp only [Except.error.injEq, exists_eq_left', crashReason_not_permanent, iff_false]
    rintro ⟨id, hasked⟩
    cases (hsearched.asked_eq hasked).2
  | @uncharged _ _ tx cause hsearched hcharged =>
    simp only [Except.error.injEq, exists_eq_left', feeReason_not_permanent, iff_false]
    rintro ⟨id, hasked⟩
    cases (hsearched.asked_eq_append hcharged hasked).2
  | @extracted _ _ tx fee hsearched hcharged =>
    simp only [reduceCtorEq, false_and, exists_false, iff_false]
    rintro ⟨id, hasked⟩
    cases (hsearched.asked_eq_append hcharged hasked).2

end

/-- A refusal is never permanent. -/
theorem refusal?_not_permanent {x : Exchange} {reason : String} (h : x.refusal? = some reason) :
    ¬ Permanent reason := by
  unfold Exchange.refusal? at h
  split at h
  · cases h
    exact deliveryReason_not_permanent _ _
  · cases h

/-- **A failure is permanent exactly if the transaction is unknown.** -/
theorem Handling.Fits.permanent_iff {sinks : Nat} {p : Handling} (h : p.Fits sinks) {c : Classifier}
    {b : Batch} {q : Inquiry} (hq : Examined c b q.found.txid q.asked q.found)
    (hfound : q.found = p.result) {reason : String} (hfailure : p.failure = some reason) :
    Permanent reason ↔ q.Unknown := by
  unfold Inquiry.Unknown
  rw [hq.unknown_iff, hfound]
  rw [h.failure_eq] at hfailure
  unfold Extraction.firstFailure at hfailure
  cases houtcome : p.result.outcome with
  | error cause =>
    rw [houtcome] at hfailure
    cases hfailure
    simp
  | ok data =>
    rw [houtcome] at hfailure
    obtain ⟨x, -, hrefusal⟩ := List.exists_of_findSome?_eq_some hfailure
    simp [refusal?_not_permanent hrefusal]

/-! ## The saves of a batch -/

/-- The questions of a batch and the results that it came to handle; of the last one, the record may
not have been saved. -/
structure Batch.Traced (c : Classifier) (sinks : Nat) (b : Batch) (inquiries : List Inquiry)
    (handled : List Handling) (tr : List Exchange) : Prop where
  txids_eq : inquiries.map (·.found.txid) = b.txids
  examined : ∀ q ∈ inquiries, Examined c b q.found.txid q.asked q.found
  found : ∀ p ∈ handled, ∃ q ∈ inquiries, q.found = p.result
  fits : ∀ p ∈ handled, p.Fits sinks
  asked : ∃ later, tr = inquiries.flatMap Inquiry.asked ++ later ∧
    ∀ x ∈ later, x.IsDelivery ∨ ∃ r ∈ recordsOf b.height handled, x.1 = .ledger (.saveUnscanned r)

/-- Handled results make deliveries and save their records. -/
theorem handled_kinds {sinks : Nat} {height : UInt64} {handled : List Handling}
    (hfits : ∀ p ∈ handled, p.Fits sinks) :
    ∀ x ∈ handled.flatMap (Handling.trace height),
      x.IsDelivery ∨ ∃ r ∈ recordsOf height handled, x.1 = .ledger (.saveUnscanned r) := by
  intro x hx
  obtain ⟨p, hp, hx⟩ := List.mem_flatMap.mp hx
  rcases List.mem_append.mp hx with hx | hx
  · exact .inl ((hfits p hp).isDelivery x hx)
  · obtain ⟨r, hr, rfl⟩ := List.mem_map.mp hx
    exact .inr ⟨r, List.mem_filterMap.mpr ⟨p, hp, Option.mem_toList.mp hr⟩, rfl⟩

theorem extractBatch_traced (c : Classifier) (sinks : Nat) (b : Batch) :
    (extractBatch c sinks b).Yields fun tr _ => ∃ (inquiries : List Inquiry)
      (handled : List Handling), b.Traced c sinks inquiries handled tr := by
  apply (extractBatch_handles c sinks b).mono
  rintro _ _ ⟨inquiries, tr', verdict, htxids, hadmitted, hhandled, rfl, -⟩
  have hexamined : ∀ q ∈ inquiries, Examined c b q.found.txid q.asked q.found :=
    fun q hq => (hadmitted q hq).examined
  have hfound : ∀ {handled : List Handling},
      handled.map Handling.result ⊆ deliveryOrder (inquiries.map Inquiry.found) →
        ∀ p ∈ handled, ∃ q ∈ inquiries, q.found = p.result := fun hsub p hp =>
    List.mem_map.mp (mem_deliveryOrder.mp (hsub (List.mem_map_of_mem hp)))
  cases hhandled with
  | @whole handled hresults hall =>
    have hfits : ∀ p ∈ handled, p.Fits sinks := fun p hp => (hall p hp).fits
    exact ⟨inquiries, handled, htxids, hexamined, hfound (fun _ he => hresults ▸ he), hfits, _, rfl,
      handled_kinds hfits⟩
  | @abandoned handled last rest r cause hresults hall hlast hrecord =>
    have hfits : ∀ p ∈ handled, p.Fits sinks := fun p hp => (hall p hp).fits
    have hlater : r ∈ recordsOf b.height (handled ++ [last]) := by
      simp [recordsOf_append, recordsOf_cons, hrecord]
    refine ⟨inquiries, handled ++ [last], htxids, hexamined, hfound ?_, ?_, _, rfl, fun x hx => ?_⟩
    · rw [← hresults, List.map_append]
      exact List.append_subset.mpr ⟨List.subset_append_left _ _, by simp⟩
    · rw [List.forall_mem_append, List.forall_mem_singleton]
      exact ⟨hfits, hlast.fits⟩
    · rcases List.mem_append.mp hx with hx | hx
      · refine (handled_kinds hfits x hx).imp_right fun ⟨r', hr', hsave⟩ => ⟨r', ?_, hsave⟩
        rw [recordsOf_append]
        exact List.mem_append_left _ hr'
      · rcases List.mem_append.mp hx with hx | hx
        · exact .inl (hlast.fits.isDelivery x hx)
        · cases List.mem_singleton.mp hx
          exact .inr ⟨r, hlater, rfl⟩

namespace Batch.Traced

variable {c : Classifier} {sinks : Nat} {b : Batch} {inquiries : List Inquiry}
  {handled : List Handling} {tr : List Exchange}

/-- A record that was saved is the one of a handled result. -/
theorem exists_handling (h : b.Traced c sinks inquiries handled tr) {r : UnscannedRecord}
    (hr : r ∈ readOff saved? tr) : ∃ p ∈ handled, p.record b.height = some r := by
  have hsave := mem_saved.mp hr
  obtain ⟨later, rfl, hlater⟩ := h.asked
  rcases List.mem_append.mp hsave with hsave | hsave
  · exact (asked_isLookup h.examined _ hsave).elim
  · rcases hlater _ hsave with hdelivery | ⟨r', hr', heq⟩
    · exact hdelivery.elim
    · cases heq
      exact List.mem_filterMap.mp hr'

/-- The questions about a transaction are in the inquiry about it. -/
theorem exists_inquiry (h : b.Traced c sinks inquiries handled tr) {txid : String} {answer : Lookup}
    (hasked : (⟨.chain (.transaction txid), answer⟩ : Exchange) ∈ tr) :
    ∃ q ∈ inquiries, q.found.txid = txid ∧
      (⟨.chain (.transaction txid), answer⟩ : Exchange) ∈ q.asked := by
  obtain ⟨later, rfl, hlater⟩ := h.asked
  rcases List.mem_append.mp hasked with hasked | hasked
  · obtain ⟨q, hq, hasked⟩ := List.mem_flatMap.mp hasked
    exact ⟨q, hq, ((h.examined q hq).asked_txid hasked).symm, hasked⟩
  · rcases hlater _ hasked with hdelivery | ⟨r, -, heq⟩
    · exact hdelivery.elim
    · cases heq

/-- If no transaction is repeated, then the one of a saved record is unknown if the chain source
said so. -/
theorem unknown_iff (h : b.Traced c sinks inquiries handled tr) (hnodup : b.txids.Nodup)
    {q : Inquiry} (hq : q ∈ inquiries) :
    q.Unknown ↔ ∃ id, (⟨.chain (.transaction q.found.txid),
      Lookup.failed (.transactionNotFound id)⟩ : Exchange) ∈ tr := by
  constructor
  · rintro ⟨id, hasked⟩
    obtain ⟨later, rfl, -⟩ := h.asked
    exact ⟨id, List.mem_append_left _ (List.mem_flatMap.mpr ⟨q, hq, hasked⟩)⟩
  · rintro ⟨id, hasked⟩
    obtain ⟨q', hq', htxid, hasked'⟩ := h.exists_inquiry hasked
    rw [← h.txids_eq] at hnodup
    obtain rfl : q' = q := List.inj_on_of_nodup_map hnodup hq' hq htxid
    exact ⟨id, hasked'⟩

end Batch.Traced

/-! ## Purges -/

theorem mem_purged {l : Ledger} {r : UnscannedRecord} :
    r ∈ l.purged.records ↔ r ∈ l.records ∧ ¬ Permanent r.reason := by
  rw [purge_records, List.mem_filter, Bool.not_eq_true', Bool.eq_false_iff]
  rfl

/-- A retry pass over a ledger of either kind begins with the purge, and goes on with what is
left. -/
theorem retry_opens {τ : Type} (e : Engine) (outside : Handler τ) (l : Ledger) (t : τ) :
    ∃ listed later, (e.retry.run (amid Ledger.perform outside) (l, t)).trace =
        retryOpening (l.records.filter fun r => beginsWith unknownTransactionLead r.reason).length
          listed ++ later ∧
      listed.Perm l.purged.records := by
  have hpurge := perform_purge lead_no_nul l
  obtain ⟨listed, hlist, hperm⟩ := perform_listUnscanned l.purged
  have hfirst : l.perform (.deleteUnscannedByReason unknownTransactionLead) =
      (.ok (l.records.filter fun r => beginsWith unknownTransactionLead r.reason).length,
        l.purged) := Prod.ext hpurge rfl
  unfold Engine.retry
  simp only [bind_eq, store, Script.bind, run, amid, hfirst, hlist]
  exact ⟨listed, _, rfl, hperm⟩

/-- **Purging removes exactly the permanently failed transactions.**  A batch is run in any
surroundings, whatever texts these answer.  Every record that it saves is the one of a transaction
that was asked about; the reason is permanent exactly if the decisive lookup answered that the
transaction is unknown, and where no transaction is repeated this can be read off the exchanges.
The purge of a ledger of either kind, which every retry pass begins with, deletes such records and
no other: not those of other answers, of failed fee lookups, of refused deliveries or of workers
that died. -/
theorem purge_exact {σ : Type} (c : Classifier) (sinks : Nat) (b : Batch) (handler : Handler σ)
    (s : σ) :
    let tr := ((extractBatch c sinks b).run handler s).trace
    ∃ (inquiries : List Inquiry) (handled : List Handling),
      b.Traced c sinks inquiries handled tr ∧
      (∀ r ∈ readOff saved? tr, ∃ p ∈ handled, p.record b.height = some r ∧
        ∀ q ∈ inquiries, q.found = p.result →
          (beginsWith unknownTransactionLead r.reason = true ↔ q.Unknown) ∧
          ∀ l : Ledger, r ∈ l.purged.records ↔ r ∈ l.records ∧ ¬ q.Unknown) ∧
      (b.txids.Nodup → ∀ r ∈ readOff saved? tr,
        beginsWith unknownTransactionLead r.reason = true ↔
          ∃ id, (⟨.chain (.transaction r.txid), .failed (.transactionNotFound id)⟩ : Exchange) ∈
            tr) ∧
      ∀ {τ : Type} (e : Engine) (outside : Handler τ) (l : Ledger) (t : τ), ∃ listed later,
        (e.retry.run (amid Ledger.perform outside) (l, t)).trace =
          retryOpening (l.records.filter fun r => beginsWith unknownTransactionLead r.reason).length
            listed ++ later ∧
        listed.Perm l.purged.records := by
  intro tr
  obtain ⟨-, -, inquiries, handled, htraced⟩ := (extractBatch_traced c sinks b).run handler s
  have hpermanent : ∀ {p : Handling} {r : UnscannedRecord}, p ∈ handled →
      p.record b.height = some r → ∀ q ∈ inquiries, q.found = p.result →
        (Permanent r.reason ↔ q.Unknown) ∧ r.txid = q.found.txid := by
    intro p r hp hrecord q hq hfound
    obtain ⟨reason, hfailure, rfl⟩ := Option.map_eq_some_iff.mp hrecord
    exact ⟨(htraced.fits p hp).permanent_iff (htraced.examined q hq) hfound hfailure,
      hfound ▸ rfl⟩
  refine ⟨inquiries, handled, htraced, fun r hr => ?_, fun hnodup r hr => ?_,
    fun e outside l t => retry_opens e outside l t⟩
  · obtain ⟨p, hp, hrecord⟩ := htraced.exists_handling hr
    refine ⟨p, hp, hrecord, fun q hq hfound => ?_⟩
    obtain ⟨hiff, -⟩ := hpermanent hp hrecord q hq hfound
    refine ⟨hiff, fun l => ?_⟩
    rw [mem_purged, hiff]
  · obtain ⟨p, hp, hrecord⟩ := htraced.exists_handling hr
    obtain ⟨q, hq, hfound⟩ := htraced.found p hp
    obtain ⟨hiff, htxid⟩ := hpermanent hp hrecord q hq hfound
    rw [htxid]
    exact hiff.trans (htraced.unknown_iff hnodup hq)

end WalletScan
