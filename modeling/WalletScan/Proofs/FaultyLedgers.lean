import WalletScan.Proofs.Outcomes

/-!
# Ledgers that refuse operations

A ledger of either kind is put behind a plan that says which of the operations to come fail.

* `FaultyLedger.perform` — what the plan refuses is not carried out.
* `faulty_cut` — wherever a run is cut off in which a failing operation comes last, the ledger is
  the one that the operations before the failure lead to without any plan.
-/

set_option autoImplicit false

namespace WalletScan

open Script

/-- A ledger and a plan: for each operation to come, the cause for which it is refused, if it is.
Operations beyond the plan are carried out. -/
structure FaultyLedger where
  ledger : Ledger
  plan : List (Option LedgerError)

namespace FaultyLedger

/-- Performs an operation unless the plan refuses it; a refused operation changes nothing. -/
def perform (op : LedgerOp) (f : FaultyLedger) : Except LedgerError op.Answer × FaultyLedger :=
  match f.plan.head?.join with
  | some cause => (.error cause, ⟨f.ledger, f.plan.tail⟩)
  | none => ((f.ledger.perform op).1, ⟨(f.ledger.perform op).2, f.plan.tail⟩)

theorem perform_ok {op : LedgerOp} {f : FaultyLedger} {answer : op.Answer}
    (h : (f.perform op).1 = .ok answer) :
    (f.ledger.perform op).1 = .ok answer ∧ (f.perform op).2.ledger = (f.ledger.perform op).2 := by
  unfold perform at h ⊢
  cases hplan : f.plan.head?.join with
  | some cause =>
    rw [hplan] at h
    cases h
  | none =>
    rw [hplan] at h
    exact ⟨h, rfl⟩

/-- An operation that fails changes nothing, whether it was refused or a block could not be read. -/
theorem perform_error {op : LedgerOp} {f : FaultyLedger} {cause : LedgerError}
    (h : (f.perform op).1 = .error cause) : (f.perform op).2.ledger = f.ledger := by
  unfold perform at h ⊢
  cases hplan : f.plan.head?.join with
  | some refusal => rfl
  | none =>
    rw [hplan] at h
    obtain ⟨height, rfl⟩ : ∃ height, op = .getBlock height := by
      by_contra hother
      obtain ⟨answer, hanswer⟩ := ledger_steady.writes op f.ledger fun height heq =>
        hother ⟨height, heq⟩
      cases hanswer.symm.trans h
    exact ledger_steady.reads height f.ledger

end FaultyLedger

/-- As long as no operation fails, a faulty ledger goes through what the ledger itself does. -/
theorem faulty_replay {f : FaultyLedger} {tr : List Exchange}
    (h : Answered FaultyLedger.perform f tr) (hclean : ∀ x ∈ tr, ¬ x.LedgerFailed) :
    Answered Ledger.perform f.ledger tr ∧
      (replay FaultyLedger.perform f tr).ledger = replay Ledger.perform f.ledger tr := by
  induction tr generalizing f with
  | nil => exact ⟨trivial, rfl⟩
  | cons x rest ih =>
    rw [List.forall_mem_cons] at hclean
    obtain ⟨q, a⟩ := x
    cases q with
    | ledger op =>
      obtain ⟨hanswer, hrest⟩ := h
      rcases a with cause | answer
      · exact absurd trivial hclean.1
      · obtain ⟨hfirst, hledger⟩ := FaultyLedger.perform_ok hanswer.symm
        have hlater := ih hrest hclean.2
        rw [hledger] at hlater
        exact ⟨⟨hfirst.symm, hlater.1⟩, hlater.2⟩
    | _ => exact ih h hclean.2

/-- Operations that fail leave a faulty ledger as it is. -/
theorem faulty_replay_failed {f : FaultyLedger} {tr : List Exchange}
    (h : Answered FaultyLedger.perform f tr) (hfailed : ∀ x ∈ tr, x.LedgerFailed) :
    (replay FaultyLedger.perform f tr).ledger = f.ledger := by
  induction tr generalizing f with
  | nil => rfl
  | cons x rest ih =>
    rw [List.forall_mem_cons] at hfailed
    obtain ⟨q, a⟩ := x
    cases q with
    | ledger op =>
      obtain ⟨hanswer, hrest⟩ := h
      rcases a with cause | answer
      · exact (ih hrest hfailed.2).trans (FaultyLedger.perform_error hanswer.symm)
      · exact hfailed.1.elim
    | _ => exact hfailed.1.elim

/-- If a failing operation is the last exchange, then all before it succeeded. -/
theorem exists_clean_part {before after : List Exchange} {h : Option Halt}
    (hlast : TraceLaw.ledgerFailsLast.Holds (before ++ after) h) :
    ∃ done failed, before = done ++ failed ∧ (∀ x ∈ done, ¬ x.LedgerFailed) ∧
      ∀ x ∈ failed, x.LedgerFailed := by
  have hearlier : ∀ (init : List Exchange) (x : Exchange) (rest : List Exchange),
      before ++ after = init ++ x :: rest → ∀ y ∈ init, ¬ y.LedgerFailed := by
    intro init x rest heq y hy hfailed
    obtain ⟨past, later, rfl⟩ := List.mem_iff_append.mp hy
    obtain ⟨q, a⟩ := y
    rcases q with _ | op | _ | _ | _ | _
    case ledger =>
      rcases a with cause | answer
      · have hend := (hlast past op cause (later ++ x :: rest) (by simp [heq])).1
        simp at hend
      · exact hfailed
    all_goals exact hfailed
  rcases List.eq_nil_or_concat before with rfl | ⟨init, x, rfl⟩
  · exact ⟨[], [], rfl, by simp, by simp⟩
  · have hinit : ∀ y ∈ init, ¬ y.LedgerFailed := hearlier init x after (by simp)
    by_cases hx : x.LedgerFailed
    · exact ⟨init, [x], by simp, hinit, by simpa using hx⟩
    · refine ⟨init ++ [x], [], by simp, ?_, by simp⟩
      rw [List.forall_mem_append, List.forall_mem_singleton]
      exact ⟨hinit, hx⟩

/-- A ledger that refused something has carried out what came before the refusal, and no more. -/
theorem faulty_cut {f : FaultyLedger} {past before after : List Exchange} {h : Option Halt}
    (hanswered : Answered FaultyLedger.perform f (past ++ (before ++ after)))
    (hlast : TraceLaw.ledgerFailsLast.Holds (past ++ (before ++ after)) h)
    (hpast : ∀ x ∈ past, ¬ x.LedgerFailed) :
    ∃ done failed, before = done ++ failed ∧ (∀ x ∈ done, ¬ x.LedgerFailed) ∧
      Answered Ledger.perform f.ledger (past ++ done) ∧
      (replay FaultyLedger.perform f (past ++ before)).ledger =
        replay Ledger.perform f.ledger (past ++ done) := by
  have hlater : TraceLaw.ledgerFailsLast.Holds (before ++ after) h := by
    intro earlier op cause rest heq
    exact hlast (past ++ earlier) op cause rest (by simp [heq])
  obtain ⟨done, failed, rfl, hdone, hfailed⟩ := exists_clean_part hlater
  have hclean : ∀ x ∈ past ++ done, ¬ x.LedgerFailed := List.forall_mem_append.mpr ⟨hpast, hdone⟩
  have hsplit : past ++ (done ++ failed ++ after) = (past ++ done) ++ (failed ++ after) := by simp
  rw [hsplit, answered_append] at hanswered
  obtain ⟨hanswered', hrest⟩ := hanswered
  obtain ⟨hfaultless, hreplayed⟩ := faulty_replay hanswered' hclean
  refine ⟨done, failed, rfl, hdone, hfaultless, ?_⟩
  rw [← List.append_assoc, replay_append,
    faulty_replay_failed (answered_append.mp hrest).1 hfailed, hreplayed]

end WalletScan
