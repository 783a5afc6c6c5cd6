import WalletScan.Ledger.Rows
import WalletScan.Proofs.Surroundings

/-!
# What an iteration makes of a ledger

The laws of `WalletScan.Proofs.Scripts` speak of exchanges.  Here a predicate is carried through a
script that speaks of the result and of the ledger that is left, whatever the surroundings answer.

* `Leads` — a predicate holds of the result of a script and of the ledger after it.
* `Steady` — of the operations of a ledger only the reading of a block can fail, and it changes
  nothing; both kinds of ledgers are steady.
* `rewind_leads` — the four ways in which a rewind ends, and the ledger that each leaves.
* `advanceOnce_leads` — the same for a whole iteration of an advance.
-/

set_option autoImplicit false

namespace WalletScan

open Script

section

variable {L τ α β : Type}

/-- In some state, the surroundings give an answer to a query. -/
def Answers (outside : Handler τ) (q : Query) (answer : q.Answer) : Prop :=
  ∃ t, (outside q t).1 = answer

/-- Whatever state the surroundings are in, a predicate holds of the result of a script over a
ledger and of the ledger after it. -/
def Leads (perform : (op : LedgerOp) → L → Except LedgerError op.Answer × L) (outside : Handler τ)
    (p : Script α) (l : L) (Q : Except Halt α → L → Prop) : Prop :=
  ∀ t, Q (p.run (amid perform outside) (l, t)).result
    (p.run (amid perform outside) (l, t)).state.1

/-- Only the reading of a block can fail, and it leaves the ledger as it is. -/
structure Steady (perform : (op : LedgerOp) → L → Except LedgerError op.Answer × L) : Prop where
  reads : ∀ height l, (perform (.getBlock height) l).2 = l
  writes : ∀ op l, (∀ height, op ≠ .getBlock height) → ∃ answer, (perform op l).1 = .ok answer

theorem memory_steady : Steady MemoryLedger.carryOut := ⟨fun _ _ => rfl, fun _ _ _ => ⟨_, rfl⟩⟩

theorem ledger_steady : Steady Ledger.perform := by
  refine ⟨?_, ?_⟩
  · rintro height (l | l) <;> rfl
  · rintro op (l | l) hop
    · exact ⟨_, rfl⟩
    · cases op
      case getBlock height => exact absurd rfl (hop height)
      all_goals exact ⟨_, rfl⟩

/-! ## Rules -/

section

variable {perform : (op : LedgerOp) → L → Except LedgerError op.Answer × L} {outside : Handler τ}
  {l : L}

theorem Leads.mono {p : Script α} {P Q : Except Halt α → L → Prop}
    (h : Leads perform outside p l P) (hPQ : ∀ r l', P r l' → Q r l') :
    Leads perform outside p l Q := fun t => hPQ _ _ (h t)

theorem Leads.done {a : α} {Q : Except Halt α → L → Prop} (h : Q (.ok a) l) :
    Leads perform outside (.done a) l Q := fun _ => h

theorem Leads.bind {p : Script α} {f : α → Script β} {P : Except Halt α → L → Prop}
    {Q : Except Halt β → L → Prop} (hp : Leads perform outside p l P)
    (hok : ∀ a l', P (.ok a) l' → Leads perform outside (f a) l' Q)
    (herr : ∀ h l', P (.error h) l' → Q (.error h) l') :
    Leads perform outside (p.bind f) l Q := by
  intro t
  have hfirst := hp t
  rw [run_bind]
  revert hfirst
  rcases p.run (amid perform outside) (l, t) with ⟨a | h, ⟨l', t'⟩, tr⟩
  · exact fun hfirst => herr _ _ hfirst
  · exact fun hfirst => hok _ _ hfirst t'

theorem Leads.store {op : LedgerOp} {f : op.Answer → Script α} {Q : Except Halt α → L → Prop}
    (hok : ∀ answer, (perform op l).1 = .ok answer →
      Leads perform outside (f answer) (perform op l).2 Q)
    (herr : ∀ cause, (perform op l).1 = .error cause →
      Q (.error (.failed (.ledger cause))) (perform op l).2) :
    Leads perform outside ((Script.store op).bind f) l Q := by
  intro t
  cases hanswer : (perform op l).1 with
  | ok answer =>
    have hrun : (amid perform outside (.ledger op) (l, t)).1 = .ok answer := hanswer
    simp only [Script.store, ask_bind, run, hrun]
    exact hok answer hanswer t
  | error cause =>
    have hrun : (amid perform outside (.ledger op) (l, t)).1 = .error cause := hanswer
    simp only [Script.store, ask_bind, run, hrun]
    exact herr cause hanswer

theorem Leads.write (hsteady : Steady perform) {op : LedgerOp} {f : op.Answer → Script α}
    {Q : Except Halt α → L → Prop} (hop : ∀ height, op ≠ .getBlock height)
    (hok : ∀ answer, (perform op l).1 = .ok answer →
      Leads perform outside (f answer) (perform op l).2 Q) :
    Leads perform outside ((Script.store op).bind f) l Q := by
  refine Leads.store hok fun cause hcause => ?_
  obtain ⟨answer, hanswer⟩ := hsteady.writes op l hop
  rw [hanswer] at hcause
  cases hcause

theorem Leads.getBlock (hsteady : Steady perform) {height : UInt64} {f : Option Block → Script α}
    {Q : Except Halt α → L → Prop}
    (hok : ∀ stored, (perform (.getBlock height) l).1 = .ok stored →
      Leads perform outside (f stored) l Q)
    (herr : ∀ cause, (perform (.getBlock height) l).1 = .error cause →
      Q (.error (.failed (.ledger cause))) l) :
    Leads perform outside ((Script.store (.getBlock height)).bind f) l Q := by
  refine Leads.store (fun stored hstored => ?_) fun cause hcause => ?_
  · rw [hsteady.reads]
    exact hok stored hstored
  · rw [hsteady.reads]
    exact herr cause hcause

theorem Leads.chain {q : ChainQuery} {f : q.Answer → Script α} {Q : Except Halt α → L → Prop}
    (h : ∀ answer, Answers outside (.chain q) answer → Leads perform outside (f answer) l Q) :
    Leads perform outside ((Script.chain q).bind f) l Q := fun t => h _ ⟨t, rfl⟩ _

theorem Leads.taskState {f : TaskState → Script α} {Q : Except Halt α → L → Prop}
    (h : ∀ state, Answers outside .taskState state → Leads perform outside (f state) l Q) :
    Leads perform outside ((Script.query .taskState).bind f) l Q := fun t => h _ ⟨t, rfl⟩ _

theorem Leads.report {event : StatusEvent} {f : Unit → Script α} {Q : Except Halt α → L → Prop}
    (h : Leads perform outside (f ()) l Q) :
    Leads perform outside ((Script.report event).bind f) l Q := fun _ => h _

theorem Leads.announce {header : BlockHeader} {isFork : Bool} {f : Unit → Script α}
    {Q : Except Halt α → L → Prop} (hlives : Leads perform outside (f ()) l Q)
    (hdies : ∀ detail, Answers outside (.announce header isFork) (.error detail) →
      Q (.error (.crashed detail)) l) :
    Leads perform outside ((Script.announce header isFork).bind f) l Q := by
  intro t
  cases hanswer : (outside (.announce header isFork) t).1 with
  | ok u =>
    have hrun : (amid perform outside (.announce header isFork) (l, t)).1 = .ok u := hanswer
    simp only [Script.announce, ask_bind, run, hrun]
    exact hlives _
  | error detail =>
    have hrun : (amid perform outside (.announce header isFork) (l, t)).1 = .error detail :=
      hanswer
    simp only [Script.announce, ask_bind, run, hrun]
    exact hdies detail ⟨t, hanswer⟩

/-- The ledger after a script is the one that exchanges of the script's kind lead to. -/
theorem Leads.only {K : Exchange → Prop} {p : Script α} (hp : p.Orderly K) (l : L) :
    Leads perform outside p l fun _ l' => ∃ tr, (∀ x ∈ tr, K x) ∧ l' = replay perform l tr :=
  fun t => ⟨_, (hp.run (amid perform outside) (l, t)).1, amid_replay p l t⟩

/-- A quiet script that reads no block has a result over a steady ledger. -/
theorem Leads.quiet (hsteady : Steady perform) {K : Exchange → Prop} {p : Script α}
    (hp : p.Quiet K) (hK : ∀ height answer, ¬ K ⟨.ledger (.getBlock height), answer⟩) (l : L) :
    Leads perform outside p l fun r l' => ∃ a tr, r = .ok a ∧ (∀ x ∈ tr, K x) ∧
      l' = replay perform l tr := by
  intro t
  obtain ⟨⟨hkinds, -⟩, hhalts⟩ := hp.run (amid perform outside) (l, t)
  cases hresult : (p.run (amid perform outside) (l, t)).result with
  | ok a => exact ⟨a, _, rfl, hkinds, amid_replay p l t⟩
  | error h =>
    -- the operation that failed would be the reading of a block
    obtain ⟨⟨q, answer⟩, hx, hfailed⟩ := hhalts (by rw [hresult]; rfl)
    rcases q with _ | op | _ | _ | _ | _
    case ledger =>
      rcases answer with cause | answer
      · obtain ⟨before, later, htrace⟩ := List.mem_iff_append.mp hx
        have hanswer := amid_answers p l t htrace
        obtain ⟨good, hgood⟩ := hsteady.writes op (replay perform l before) fun height heq => by
          subst heq
          exact hK height _ (hkinds _ hx)
        rw [hgood] at hanswer
        cases hanswer
      · exact hfailed.elim
    all_goals exact hfailed.elim

end

/-! ## Rewinds -/

/-- The height that a rewind from a cursor aims at. -/
def Cursor.below (c : Cursor) : UInt64 := max (lowered c.height 1) minRewindHeight

section

variable (perform : (op : LedgerOp) → L → Except LedgerError op.Answer × L) (outside : Handler τ)

/-- The cache is of no use to a rewind: the rewind is clamped, or the block below is not cached. -/
def Missed (c : Cursor) (l : L) : Prop :=
  c.below = c.height ∨ (perform (.getBlock c.below) l).1 = .ok none

/-- How the search for the block below a cursor can end, and the ledger then. -/
inductive AncestorEnd (c : Cursor) (l : L) : Except Halt (Option Block) → L → Prop
  | cached {b : Block} (hne : c.below ≠ c.height)
    (hcached : (perform (.getBlock c.below) l).1 = .ok (some b)) :
    AncestorEnd c l (.ok (some b)) l
  | fetched {b : Block} (hmissed : Missed perform c l)
    (hserved : Answers outside (.chain (.block c.below)) (.ok b)) :
    AncestorEnd c l (.ok (some b)) (perform (.putBlock b) l).2
  | unserved {cause : ChainError} (hmissed : Missed perform c l)
    (hunserved : Answers outside (.chain (.block c.below)) (.error cause)) :
    AncestorEnd c l (.ok none) l
  /-- The cached block cannot be read back. -/
  | unreadable {cause : LedgerError} (hread : (perform (.getBlock c.below) l).1 = .error cause) :
    AncestorEnd c l (.error (.failed (.ledger cause))) l

/-- How a rewind can end once the records at its cursor are deleted, and the ledger then. -/
inductive RewindEnd (c : Cursor) (l : L) : Except Halt (Option Cursor) → L → Prop
  /-- The abandoned block is cached and cannot be read back. -/
  | unreadable {cause : LedgerError} (hread : (perform (.getBlock c.height) l).1 = .error cause) :
    RewindEnd c l (.error (.failed (.ledger cause))) l
  | failed {h : Halt} {l' : L} (hsearch : AncestorEnd perform outside c l (.error h) l') :
    RewindEnd c l (.error h) l'
  | stuck {l' : L} (hsearch : AncestorEnd perform outside c l (.ok none) l') :
    RewindEnd c l (.ok none) l'
  | moved {b : Block} {l' : L} (hsearch : AncestorEnd perform outside c l (.ok (some b)) l') :
    RewindEnd c l (.ok (some b.header.cursor)) (perform (.setCursor b.header.cursor) l').2
  /-- An observer died of the abandoned block. -/
  | died {b abandoned : Block} {detail : String} {l' : L}
    (hsearch : AncestorEnd perform outside c l (.ok (some b)) l')
    (hdied : Answers outside (.announce abandoned.header true) (.error detail)) :
    RewindEnd c l (.error (.crashed detail)) (perform (.setCursor b.header.cursor) l').2

end

section

variable {perform : (op : LedgerOp) → L → Except LedgerError op.Answer × L} {outside : Handler τ}

theorem ancestor_leads (hsteady : Steady perform) (c : Cursor) (l : L) :
    Leads perform outside (Engine.ancestor c.height c.below) l
      (AncestorEnd perform outside c l) := by
  unfold Engine.ancestor
  extract_lets rest
  have hmiss : Missed perform c l →
      Leads perform outside (rest none) l (AncestorEnd perform outside c l) := by
    intro hmissed
    refine Leads.chain ?_
    rintro (cause | b) hanswer
    · exact Leads.done (.unserved hmissed hanswer)
    · exact Leads.write hsteady (by simp) fun _ _ => Leads.done (.fetched hmissed hanswer)
  split
  · rename_i hclamped
    exact hmiss (.inl hclamped)
  · rename_i hne
    refine Leads.getBlock hsteady ?_ fun cause hcause => .unreadable hcause
    rintro (_ | b) hstored
    · exact hmiss (.inr hstored)
    · exact Leads.done (.cached hne hstored)

/-- **What a rewind can do.** -/
theorem rewind_leads (hsteady : Steady perform) (c : Cursor) (l : L) :
    Leads perform outside (Engine.rewind c) l
      (RewindEnd perform outside c (perform (.deleteUnscanned c.height) l).2) := by
  unfold Engine.rewind
  refine Leads.write hsteady (by simp) fun _ _ => ?_
  refine Leads.getBlock hsteady ?_ fun cause hcause => .unreadable hcause
  intro abandoned _
  refine Leads.bind (ancestor_leads hsteady c _) ?_ fun h l' hsearch => .failed hsearch
  rintro (_ | b) l' hsearch
  · exact Leads.done (.stuck hsearch)
  · refine Leads.write hsteady (by simp) fun _ _ => ?_
    cases abandoned with
    | none => exact Leads.report (Leads.done (.moved hsearch))
    | some a =>
      refine Leads.announce ?_ fun detail hdied => .died hsearch hdied
      exact Leads.report (Leads.done (.moved hsearch))

end

/-! ## Iterations -/

section

variable (perform : (op : LedgerOp) → L → Except LedgerError op.Answer × L) (outside : Handler τ)

/-- A block does not extend the chain that was scanned up to a cursor. -/
def Breaks (c : Cursor) (b : Block) : Prop := 0 < c.height ∧ b.header.previousHash ≠ c.hash

/-- Where an advance stands after a rewind that was asked for at a place. -/
def rewoundTo (p : Engine.Progress) : Option Cursor → Engine.Iteration
  | some c => .moved { p with cursor := c, forks := p.forks + 1 }
  | none => .settled

/-- Where an advance stands after the acceptance of a block. -/
def acceptedAt (p : Engine.Progress) (b : Block) : Engine.Progress :=
  { p with cursor := b.header.cursor, blocks := p.blocks + 1 }

/-- A ledger after the acceptance of a block whose batch had the given exchanges. -/
def acceptedInto (b : Block) (batch : List Exchange) (l : L) : L :=
  (perform (.putBlock b) (perform (.setCursor b.header.cursor) (replay perform l batch)).2).2

/-- How an iteration can go on from a fetched block, and the ledger then. -/
inductive OverEnd (p : Engine.Progress) (b : Block) (l : L) :
    Except Halt Engine.Iteration → L → Prop
  | rewound {r : Except Halt (Option Cursor)} {l' : L} (hbreaks : Breaks p.cursor b)
    (h : RewindEnd perform outside p.cursor (perform (.deleteUnscanned p.cursor.height) l).2 r l') :
    OverEnd p b l (r.map (rewoundTo p)) l'
  | accepted {batch : List Exchange} (hextends : ¬ Breaks p.cursor b)
    (hbatch : ∀ x ∈ batch, x.InBatch b.height) :
    OverEnd p b l (.ok (.moved (acceptedAt p b))) (acceptedInto perform b batch l)
  /-- An observer died of the accepted block. -/
  | died {batch : List Exchange} {detail : String} (hextends : ¬ Breaks p.cursor b)
    (hbatch : ∀ x ∈ batch, x.InBatch b.height)
    (hdied : Answers outside (.announce b.header false) (.error detail)) :
    OverEnd p b l (.error (.crashed detail)) (acceptedInto perform b batch l)

/-- Why an iteration can end an advance. -/
inductive Stops (p : Engine.Progress) : Prop
  | interrupted {state : TaskState} (hstate : state ≠ .running)
    (h : Answers outside .taskState state)
  | tipless {cause : ChainError} (h : Answers outside (.chain .tip) (.error cause))
  | caughtUp {tip : UInt64} (hle : tip ≤ p.cursor.height)
    (h : Answers outside (.chain .tip) (.ok tip))
  | unserved {cause : ChainError}
    (h : Answers outside (.chain (.block (p.cursor.height + 1))) (.error cause))

/-- How an iteration can end, and the ledger then. -/
inductive IterationEnd (p : Engine.Progress) (l : L) : Except Halt Engine.Iteration → L → Prop
  | stopped {i : Engine.Iteration} (hi : ∀ p', i ≠ .moved p') (hstops : Stops outside p) :
    IterationEnd p l (.ok i) l
  | served {tip : UInt64} {b : Block} {r : Except Halt Engine.Iteration} {l' : L}
    (htip : Answers outside (.chain .tip) (.ok tip)) (hlt : p.cursor.height < tip)
    (hblock : Answers outside (.chain (.block (p.cursor.height + 1))) (.ok b))
    (h : OverEnd perform outside p b l r l') : IterationEnd p l r l'

end

section

variable {perform : (op : LedgerOp) → L → Except LedgerError op.Answer × L} {outside : Handler τ}

theorem advanceOver_leads (hsteady : Steady perform) (e : Engine) (p : Engine.Progress) (b : Block)
    (l : L) : Leads perform outside (e.advanceOver p b) l (OverEnd perform outside p b l) := by
  unfold Engine.advanceOver
  split
  · rename_i hbreaks
    refine Leads.bind (rewind_leads hsteady p.cursor l) ?_ fun h l' hend => .rewound hbreaks hend
    rintro (_ | c) l' hend
    · exact Leads.done (.rewound hbreaks hend)
    · exact Leads.done (.rewound hbreaks hend)
  · rename_i hextends
    have hreads : ∀ height answer,
        ¬ Exchange.InBatch b.height ⟨.ledger (.getBlock height), answer⟩ := by
      simp [Exchange.InBatch, Exchange.IsLookup, Exchange.IsDelivery, Exchange.IsSaveAt]
    unfold Engine.accept
    simp only [bind_eq, bind_assoc]
    refine Leads.bind (Leads.quiet hsteady (runBatch_quiet e b.batch) hreads l) ?_ ?_
    · rintro _ _ ⟨failed, batch, -, hbatch, rfl⟩
      refine Leads.write hsteady (by simp) fun _ _ => ?_
      refine Leads.write hsteady (by simp) fun _ _ => ?_
      refine Leads.announce ?_ fun detail hdied => .died hextends hbatch hdied
      exact Leads.report (Leads.done (.accepted hextends hbatch))
    · rintro h l' ⟨failed, batch, ⟨⟩, -⟩

/-- **What an iteration can do.**  It ends the advance and leaves the ledger alone, or it goes over
the block that the chain source serves next. -/
theorem advanceOnce_leads (hsteady : Steady perform) (e : Engine) (p : Engine.Progress) (l : L) :
    Leads perform outside (e.advanceOnce p) l (IterationEnd perform outside p l) := by
  unfold Engine.advanceOnce
  refine Leads.taskState fun state hstate => ?_
  cases state with
  | stopped => exact Leads.done (.stopped (by simp) (.interrupted (by simp) hstate))
  | idle => exact Leads.done (.stopped (by simp) (.interrupted (by simp) hstate))
  | paused => exact Leads.done (.stopped (by simp) (.interrupted (by simp) hstate))
  | running =>
    refine Leads.chain ?_
    rintro (cause | tip) htip
    · exact Leads.done (.stopped (by simp) (.tipless htip))
    · by_cases hle : tip ≤ p.cursor.height
      · simp only [hle, if_true]
        exact Leads.done (.stopped (by simp) (.caughtUp hle htip))
      · simp only [hle, if_false]
        refine Leads.chain ?_
        rintro (cause | b) hblock
        · exact Leads.done (.stopped (by simp) (.unserved hblock))
        · refine (advanceOver_leads hsteady e p b l).mono fun r l' h => ?_
          exact .served htip (UInt64.not_le.mp hle) hblock h

end

end

end WalletScan
