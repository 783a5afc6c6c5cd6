import WalletScan.Engine
import WalletScan.Proofs.BatchOrder
import WalletScan.Proofs.Outcomes

/-!
# Chain sources with fixed answers

If a chain source answers by what it is asked only, then a script that asks nobody else but the
ledger does the same in all surroundings.

* `Ends` — from a ledger, a script comes to one result and one ledger.
* `lookUpFee_ends`, `resolveHash_ends` — what the lookups of a fee and of a block hash come to.
* `FixedAnswers.chain_answer` — what the chain source is said to answer in a run, it does answer.
-/

set_option autoImplicit false

namespace WalletScan

open Script

section

variable {L τ α β : Type}

/-- The chain source answers each query the same, whatever state the surroundings are in. -/
def FixedAnswers (outside : Handler τ) (chain : (q : ChainQuery) → q.Answer) : Prop :=
  ∀ q t, (outside (.chain q) t).1 = chain q

theorem Consistent.fixedAnswers {outside : Handler τ} (h : Consistent outside) (t : τ) :
    FixedAnswers outside fun q => (outside (.chain q) t).1 := fun q t' => h.chain q t' t

/-- From a ledger, a script comes to a result and leaves a ledger, whatever state the surroundings
are in. -/
def Ends (perform : (op : LedgerOp) → L → Except LedgerError op.Answer × L) (outside : Handler τ)
    (p : Script α) (l : L) (r : Except Halt α) (l' : L) : Prop :=
  Leads perform outside p l fun r' l'' => r' = r ∧ l'' = l'

/-- What a script makes of the answer of a ledger. -/
def stored : Except LedgerError α → Except Halt α
  | .ok answer => .ok answer
  | .error cause => .error (.failed (.ledger cause))

/-- What is known of the fee of a transaction; without an owned sender nothing is looked up. -/
def knownFee (chain : (q : ChainQuery) → q.Answer) (owners : Owners) (tx : Transaction) :
    Except ChainError (Option UInt64) :=
  match feePayer owners tx with
  | none => .ok none
  | some _ =>
    match chain (.fee tx.feeKind tx.height) with
    | .ok fee => .ok (some fee)
    | .error cause => .error cause

section

variable {perform : (op : LedgerOp) → L → Except LedgerError op.Answer × L} {outside : Handler τ}
  {chain : (q : ChainQuery) → q.Answer} {p : Script α} {f : α → Script β} {l l' l'' : L}

/-! ## Rules -/

/-- A sequence has a result exactly if its first script has one, and then the script that it
selects. -/
theorem run_bind_eq_ok {σ : Type} {handler : Handler σ} {s : σ} {b : β} :
    ((p.bind f).run handler s).result = .ok b ↔
      ∃ a, (p.run handler s).result = .ok a ∧
        ((f a).run handler (p.run handler s).state).result = .ok b := by
  rw [run_bind]
  cases hresult : (p.run handler s).result with
  | ok a => simp [hresult]
  | error x => simp [hresult]

theorem Ends.result {r : Except Halt α} (h : Ends perform outside p l r l') (t : τ) :
    (p.run (amid perform outside) (l, t)).result = r := (h t).1

theorem Ends.done (a : α) (l : L) : Ends perform outside (.done a) l (.ok a) l :=
  fun _ => ⟨rfl, rfl⟩

theorem Ends.halt (x : Halt) (l : L) :
    Ends perform outside (.halt x : Script α) l (.error x) l := fun _ => ⟨rfl, rfl⟩

/-- A sequence after a script of which the end is known. -/
theorem Ends.leads_bind {r : Except Halt α} {Q : Except Halt β → L → Prop}
    (hp : Ends perform outside p l r l')
    (hok : ∀ a, r = .ok a → Leads perform outside (f a) l' Q)
    (herr : ∀ x, r = .error x → Q (.error x) l') : Leads perform outside (p.bind f) l Q := by
  refine Leads.bind hp ?_ ?_
  · rintro a _ ⟨ha, rfl⟩
    exact hok a ha.symm
  · rintro x _ ⟨hx, rfl⟩
    exact herr x hx.symm

theorem Ends.bind {a : α} {r : Except Halt β} (hp : Ends perform outside p l (.ok a) l')
    (hf : Ends perform outside (f a) l' r l'') : Ends perform outside (p.bind f) l r l'' := by
  refine Ends.leads_bind hp ?_ ?_
  · intro a' ha'
    obtain rfl := Except.ok.inj ha'
    exact hf
  · intro x hx
    cases hx

theorem Ends.bind_error {x : Halt} (hp : Ends perform outside p l (.error x) l') :
    Ends perform outside (p.bind f) l (.error x) l' := by
  refine Ends.leads_bind hp ?_ ?_
  · intro a ha
    cases ha
  · intro x' hx'
    obtain rfl := Except.error.inj hx'
    exact ⟨rfl, rfl⟩

theorem Ends.chainQuery (hchain : FixedAnswers outside chain) (q : ChainQuery) (l : L) :
    Ends perform outside (Script.chain q) l (.ok (chain q)) l :=
  fun t => ⟨congrArg Except.ok (hchain q t), rfl⟩

theorem Ends.store (op : LedgerOp) (l : L) :
    Ends perform outside (Script.store op) l (stored (perform op l).1) (perform op l).2 := by
  rw [← Script.bind_done (Script.store op)]
  refine Leads.store ?_ ?_
  · intro answer hanswer
    rw [hanswer]
    exact Ends.done answer _
  · intro cause hcause
    rw [hcause]
    exact ⟨rfl, rfl⟩

theorem Leads.demand {answer : Except ChainError α} {Q : Except Halt β → L → Prop}
    (hok : ∀ a, answer = .ok a → Leads perform outside (f a) l Q)
    (herr : ∀ cause, answer = .error cause → Q (.error (.failed (.chain cause))) l) :
    Leads perform outside ((Script.demand answer).bind f) l Q := by
  cases answer with
  | ok a => exact hok a rfl
  | error cause => exact fun _ => herr cause rfl

/-! ## Lookups -/

section

variable (perform)

theorem lookUpFee_ends (hchain : FixedAnswers outside chain) (owners : Owners) (tx : Transaction)
    (l : L) : Ends perform outside (lookUpFee owners tx) l (.ok (knownFee chain owners tx)) l := by
  unfold lookUpFee knownFee
  cases feePayer owners tx with
  | none => exact Ends.done _ l
  | some payer =>
    refine Ends.bind (Ends.chainQuery hchain _ l) ?_
    cases chain (.fee tx.feeKind tx.height) with
    | ok fee => exact Ends.done _ l
    | error cause => exact Ends.done _ l

theorem chainHash_ends (hchain : FixedAnswers outside chain) (height : UInt64) (l : L) :
    Ends perform outside (Engine.chainHash height) l
      (.ok ((chain (.block height)).map Block.hash)) l := by
  refine Ends.bind (Ends.chainQuery hchain (.block height) l) ?_
  cases chain (.block height) with
  | ok b => exact Ends.done _ l
  | error cause => exact Ends.done _ l

/-- The lookup of a block hash comes to one end, and at most it looks the block up in the ledger. -/
theorem resolveHash_ends (hchain : FixedAnswers outside chain) (height : UInt64) (l : L) :
    ∃ r l', Ends perform outside (Engine.resolveHash height) l r l' ∧
      (l' = l ∨ l' = (perform (.getBlock height) l).2) := by
  unfold Engine.resolveHash
  by_cases hheight : height = 0
  · rw [if_pos hheight]
    exact ⟨_, l, Ends.done "" l, .inl rfl⟩
  · rw [if_neg hheight]
    have hstored : Ends perform outside (Script.store (.getBlock height)) l _ _ :=
      Ends.store (.getBlock height) l
    cases hread : (perform (.getBlock height) l).1 with
    | error cause =>
      rw [hread] at hstored
      exact ⟨_, _, Ends.bind_error hstored, .inr rfl⟩
    | ok cached =>
      rw [hread] at hstored
      cases cached with
      | some b => exact ⟨_, _, Ends.bind hstored (Ends.done b.hash _), .inr rfl⟩
      | none =>
        have hserved := chainHash_ends perform hchain height
          (perform (.getBlock height) l).2
        cases hblock : chain (.block height) with
        | ok b =>
          rw [hblock] at hserved
          exact ⟨_, _, Ends.bind hstored (Ends.bind hserved (Ends.done b.hash _)), .inr rfl⟩
        | error cause =>
          rw [hblock] at hserved
          exact ⟨_, _, Ends.bind hstored (Ends.bind hserved (Ends.done "" _)), .inr rfl⟩

end

/-- What the chain source is said to answer in a run, it does answer. -/
theorem FixedAnswers.chain_answer (hchain : FixedAnswers outside chain) (p : Script α) (l : L)
    (t : τ) {q : ChainQuery} {answer : q.Answer}
    (h : (⟨.chain q, answer⟩ : Exchange) ∈ (p.run (amid perform outside) (l, t)).trace) :
    answer = chain q := by
  obtain ⟨t', hanswer⟩ := amid_chain_answers p (l, t) h
  exact hanswer.trans (hchain q t')

end

end

end WalletScan
