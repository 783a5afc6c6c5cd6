import WalletScan.Proofs.EngineTraces
import WalletScan.Ledger.Memory

/-!
# Scans over a ledger in arbitrary surroundings

A ledger answers its own operations, and surroundings about which nothing is assumed answer
everything else (`amid`).  The exchanges of a run then say what became of the ledger.

* `amid_replay` — the ledger after a run is the one that its exchanges lead to.
* `Answered` — the operations among some exchanges got the answers that a ledger gives;
  `answered_run` says so of every run.
* `Completes` — whatever state the surroundings are in, a script over a ledger in memory has a
  result, and a predicate holds of the result and the exchanges.
* `Completes.quiet` — a quiet script always completes over a ledger in memory.
-/

set_option autoImplicit false

namespace WalletScan

open Script

section

variable {L τ : Type}

/-- Ledger operations are performed on a ledger, and the surroundings answer everything else. -/
def amid (perform : (op : LedgerOp) → L → Except LedgerError op.Answer × L)
    (outside : Handler τ) : Handler (L × τ)
  | .ledger op, (l, t) => ((perform op l).1, (perform op l).2, t)
  | .chain q, (l, t) => ((outside (.chain q) t).1, l, (outside (.chain q) t).2)
  | .deliver sink owner data, (l, t) =>
    ((outside (.deliver sink owner data) t).1, l, (outside (.deliver sink owner data) t).2)
  | .announce header isFork, (l, t) =>
    ((outside (.announce header isFork) t).1, l, (outside (.announce header isFork) t).2)
  | .report event, (l, t) => ((), l, (outside (.report event) t).2)
  | .taskState, (l, t) => ((outside .taskState t).1, l, (outside .taskState t).2)

variable {perform : (op : LedgerOp) → L → Except LedgerError op.Answer × L} {outside : Handler τ}

/-- What the operations among some exchanges make of a ledger. -/
def replay (perform : (op : LedgerOp) → L → Except LedgerError op.Answer × L) (l : L) :
    List Exchange → L
  | [] => l
  | ⟨.ledger op, _⟩ :: rest => replay perform (perform op l).2 rest
  | _ :: rest => replay perform l rest

theorem replay_append (l : L) (tr tr' : List Exchange) :
    replay perform l (tr ++ tr') = replay perform (replay perform l tr) tr' := by
  induction tr generalizing l with
  | nil => rfl
  | cons x rest ih =>
    obtain ⟨q, a⟩ := x
    cases q with
    | ledger op => exact ih _
    | _ => exact ih l

/-- A relation between ledgers that holds across operations of a kind holds across all of them. -/
theorem replay_frame {K : LedgerOp → Prop} {R : L → L → Prop} (hrefl : ∀ l, R l l)
    (htrans : ∀ {l l' l''}, R l l' → R l' l'' → R l l'')
    (hstep : ∀ op l, K op → R l (perform op l).2) {tr : List Exchange}
    (hK : ∀ op answer, (⟨.ledger op, answer⟩ : Exchange) ∈ tr → K op) (l : L) :
    R l (replay perform l tr) := by
  induction tr generalizing l with
  | nil => exact hrefl l
  | cons x rest ih =>
    have hrest : ∀ l, R l (replay perform l rest) :=
      ih fun op answer hx => hK op answer (List.mem_cons_of_mem _ hx)
    obtain ⟨q, a⟩ := x
    cases q with
    | ledger op => exact htrans (hstep op l (hK op a List.mem_cons_self)) (hrest _)
    | _ => exact hrest l

/-- The exchanges of a run say what became of the ledger. -/
theorem amid_replay {α : Type} (p : Script α) (l : L) (t : τ) :
    (p.run (amid perform outside) (l, t)).state.1 =
      replay perform l (p.run (amid perform outside) (l, t)).trace := by
  induction p generalizing l t with
  | done a => rfl
  | halt h => rfl
  | ask q next ih =>
    cases q with
    | ledger op => exact ih _ _ _
    | _ => exact ih _ _ _

/-- The operations among some exchanges got the answers that a ledger gives. -/
def Answered (perform : (op : LedgerOp) → L → Except LedgerError op.Answer × L) (l : L) :
    List Exchange → Prop
  | [] => True
  | ⟨.ledger op, answer⟩ :: rest =>
    answer = (perform op l).1 ∧ Answered perform (perform op l).2 rest
  | _ :: rest => Answered perform l rest

theorem answered_run {α : Type} (p : Script α) (l : L) (t : τ) :
    Answered perform l (p.run (amid perform outside) (l, t)).trace := by
  induction p generalizing l t with
  | done a => trivial
  | halt h => trivial
  | ask q next ih =>
    cases q with
    | ledger op => exact ⟨rfl, ih _ _ _⟩
    | _ => exact ih _ _ _

theorem answered_append {l : L} {tr tr' : List Exchange} :
    Answered perform l (tr ++ tr') ↔
      Answered perform l tr ∧ Answered perform (replay perform l tr) tr' := by
  induction tr generalizing l with
  | nil => exact (and_iff_right trivial).symm
  | cons x rest ih =>
    obtain ⟨q, a⟩ := x
    cases q with
    | ledger op => exact (and_congr_right fun _ => ih).trans and_assoc.symm
    | _ => exact ih

/-- What a ledger is said to answer in a run, it did answer. -/
theorem amid_answers {α : Type} (p : Script α) (l : L) (t : τ) {before later : List Exchange}
    {op : LedgerOp} {answer : Except LedgerError op.Answer}
    (h : (p.run (amid perform outside) (l, t)).trace = before ++ ⟨.ledger op, answer⟩ :: later) :
    answer = (perform op (replay perform l before)).1 := by
  have hanswered : Answered perform l (p.run (amid perform outside) (l, t)).trace :=
    answered_run p l t
  rw [h, answered_append] at hanswered
  exact hanswered.2.1

/-- What the chain source is said to answer in a run, the surroundings did answer. -/
theorem amid_chain_answers {α : Type} (p : Script α) (s : L × τ) {q : ChainQuery}
    {answer : q.Answer}
    (h : (⟨.chain q, answer⟩ : Exchange) ∈ (p.run (amid perform outside) s).trace) :
    ∃ t, answer = (outside (.chain q) t).1 := by
  induction p generalizing s with
  | done a => simp [run] at h
  | halt x => simp [run] at h
  | ask q' next ih =>
    rcases List.mem_cons.mp h with heq | hrest
    · cases heq
      exact ⟨s.2, rfl⟩
    · exact ih _ _ hrest

end

/-! ## A ledger in memory -/

/-- A ledger in memory carries every operation out. -/
def MemoryLedger.carryOut (op : LedgerOp) (l : MemoryLedger) :
    Except LedgerError op.Answer × MemoryLedger := (.ok (l.perform op).1, (l.perform op).2)

/-- A ledger in memory after some exchanges. -/
abbrev MemoryLedger.after (l : MemoryLedger) (tr : List Exchange) : MemoryLedger :=
  replay MemoryLedger.carryOut l tr

theorem MemoryLedger.after_append (l : MemoryLedger) (tr tr' : List Exchange) :
    l.after (tr ++ tr') = (l.after tr).after tr' := replay_append l tr tr'

section

variable {τ α β : Type} {outside : Handler τ}

/-- A ledger in memory, and surroundings that answer everything else. -/
abbrev aside (outside : Handler τ) : Handler (MemoryLedger × τ) :=
  amid MemoryLedger.carryOut outside

/-- Whatever state the surroundings are in, a script over a ledger in memory has a result, and a
predicate holds of the result and the exchanges. -/
def Completes (outside : Handler τ) (p : Script α) (l : MemoryLedger)
    (Q : α → List Exchange → Prop) : Prop :=
  ∀ t, ∃ a tr t', p.run (aside outside) (l, t) = ⟨.ok a, (l.after tr, t'), tr⟩ ∧ Q a tr

theorem Completes.mono {p : Script α} {l : MemoryLedger} {P Q : α → List Exchange → Prop}
    (h : Completes outside p l P) (hPQ : ∀ a tr, P a tr → Q a tr) : Completes outside p l Q := by
  intro t
  obtain ⟨a, tr, t', hrun, hP⟩ := h t
  exact ⟨a, tr, t', hrun, hPQ a tr hP⟩

theorem Completes.and {p : Script α} {l : MemoryLedger} {P Q : α → List Exchange → Prop}
    (hP : Completes outside p l P) (hQ : Completes outside p l Q) :
    Completes outside p l fun a tr => P a tr ∧ Q a tr := by
  intro t
  obtain ⟨a, tr, t', hrun, ha⟩ := hP t
  obtain ⟨a', tr', t'', hrun', ha'⟩ := hQ t
  have heq := hrun.symm.trans hrun'
  simp only [Run.mk.injEq, Except.ok.injEq] at heq
  obtain ⟨rfl, -, rfl⟩ := heq
  exact ⟨a, tr, t', hrun, ha, ha'⟩

theorem Completes.done {l : MemoryLedger} {Q : α → List Exchange → Prop} {a : α} (h : Q a []) :
    Completes outside (.done a) l Q := fun t => ⟨a, [], t, rfl, h⟩

theorem Completes.bind {p : Script α} {f : α → Script β} {l : MemoryLedger}
    {P : α → List Exchange → Prop} {Q : β → List Exchange → Prop} (hp : Completes outside p l P)
    (hf : ∀ a tr, P a tr → Completes outside (f a) (l.after tr) fun b tr' => Q b (tr ++ tr')) :
    Completes outside (p.bind f) l Q := by
  intro t
  obtain ⟨a, tr, t', hrun, hP⟩ := hp t
  obtain ⟨b, tr', t'', hrun', hQ⟩ := hf a tr hP t'
  refine ⟨b, tr ++ tr', t'', ?_, hQ⟩
  rw [run_bind, hrun]
  simp only [hrun', MemoryLedger.after, replay_append]

theorem Completes.store (op : LedgerOp) (l : MemoryLedger) :
    Completes outside (Script.store op) l fun a tr =>
      a = (l.perform op).1 ∧ tr = [⟨.ledger op, .ok (l.perform op).1⟩] :=
  fun t => ⟨_, _, t, rfl, rfl, rfl⟩

theorem Completes.getBlock {height : UInt64} {stored : Option Block} {l : MemoryLedger}
    (h : l.getBlock height = stored) :
    Completes outside (Script.store (.getBlock height)) l fun a tr =>
      a = stored ∧ tr = [⟨.ledger (.getBlock height), .ok stored⟩] := by
  subst h
  exact Completes.store _ _

theorem Completes.chain {q : ChainQuery} {answer : q.Answer} (l : MemoryLedger)
    (h : ∀ t, (outside (.chain q) t).1 = answer) :
    Completes outside (Script.chain q) l fun a tr => a = answer ∧ tr = [⟨.chain q, answer⟩] := by
  intro t
  refine ⟨_, [⟨.chain q, (outside (.chain q) t).1⟩], (outside (.chain q) t).2, rfl, h t, ?_⟩
  rw [h t]

theorem Completes.taskState {state : TaskState} (l : MemoryLedger)
    (h : ∀ t, (outside .taskState t).1 = state) :
    Completes outside (Script.query .taskState) l fun a tr =>
      a = state ∧ tr = [⟨.taskState, state⟩] := by
  intro t
  refine ⟨_, [⟨.taskState, (outside .taskState t).1⟩], (outside .taskState t).2, rfl, h t, ?_⟩
  rw [h t]

theorem Completes.announce {header : BlockHeader} {isFork : Bool} (l : MemoryLedger)
    (h : ∀ t, (outside (.announce header isFork) t).1 = .ok ()) :
    Completes outside (Script.announce header isFork) l fun _ tr =>
      tr = [⟨.announce header isFork, .ok ()⟩] := by
  intro t
  have hanswer : (aside outside (.announce header isFork) (l, t)).1 = .ok () := h t
  refine ⟨(), _, (outside (.announce header isFork) t).2, ?_, rfl⟩
  simp only [Script.announce, run, hanswer]
  rfl

theorem Completes.report (event : StatusEvent) (l : MemoryLedger) :
    Completes outside (Script.report event) l fun _ tr => tr = [⟨.report event, ()⟩] :=
  fun t => ⟨(), _, (outside (.report event) t).2, rfl, rfl⟩

theorem aside_carries_out (p : Script α) (s : MemoryLedger × τ) :
    ∀ x ∈ (p.run (aside outside) s).trace, ¬ x.LedgerFailed := by
  induction p generalizing s with
  | done a => simp [run]
  | halt h => simp [run]
  | ask q next ih =>
    intro x hx
    rcases List.mem_cons.mp hx with rfl | hx
    · cases q with
      | ledger op => exact id
      | _ => exact id
    · exact ih _ _ x hx

/-- A quiet script always completes over a ledger in memory. -/
theorem Completes.quiet {K : Exchange → Prop} {Q : List Exchange → Except Halt α → Prop}
    {p : Script α} (hp : p.Quiet K) (hQ : p.Ensures Q) (l : MemoryLedger) :
    Completes outside p l fun a tr => (∀ x ∈ tr, K x) ∧ Q tr (.ok a) := by
  intro t
  have hall := (Ensures.and hp hQ).run (aside outside) (l, t)
  have hreplay : (p.run (aside outside) (l, t)).state.1 =
      l.after (p.run (aside outside) (l, t)).trace := amid_replay p l t
  have hcarried : ∀ x ∈ (p.run (aside outside) (l, t)).trace, ¬ x.LedgerFailed :=
    aside_carries_out p (l, t)
  revert hall hreplay hcarried
  rcases p.run (aside outside) (l, t) with ⟨result, ⟨l', t'⟩, tr⟩
  rintro ⟨⟨⟨hkinds, -⟩, hcause⟩, hQ⟩ hreplay hcarried
  cases result with
  | ok a =>
    refine ⟨a, tr, t', ?_, hkinds, hQ⟩
    rw [show l' = l.after tr from hreplay]
  | error h =>
    obtain ⟨x, hx, hfailed⟩ := hcause rfl
    exact absurd hfailed (hcarried x hx)

/-- A ledger has the cursor and the cached blocks of another. -/
structure SamePosition (l l' : MemoryLedger) : Prop where
  cursor : l'.cursor = l.cursor
  blocks : l'.blocks = l.blocks

theorem SamePosition.trans {l l' l'' : MemoryLedger} (h : SamePosition l l')
    (h' : SamePosition l' l'') : SamePosition l l'' :=
  ⟨h'.cursor.trans h.cursor, h'.blocks.trans h.blocks⟩

theorem perform_keepsPosition {op : LedgerOp} (h : op.KeepsPosition) (l : MemoryLedger) :
    SamePosition l (l.perform op).2 := by
  cases op <;> first | exact ⟨rfl, rfl⟩ | exact h.elim

/-- What follows an advance leaves the cursor and the cached blocks alone. -/
theorem after_isDrain {tr : List Exchange} (h : ∀ x ∈ tr, x.IsDrain) (l : MemoryLedger) :
    SamePosition l (l.after tr) :=
  replay_frame (R := SamePosition) (fun _ => ⟨rfl, rfl⟩) SamePosition.trans
    (fun _ l hop => perform_keepsPosition hop l) (fun _ _ hx => h _ hx) l

end

end WalletScan
