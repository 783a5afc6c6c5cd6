import WalletScan.Script

/-!
# Reasoning about scripts

Two views of what a script does.

* `Script.Ensures` — whatever is answered, the exchanges of a script and its result satisfy a
  predicate.  No handler occurs in it; `Ensures.run` carries it over to the run against any handler.
* `TraceLaw` — a property of exchanges that two consecutive scripts keep if each of them does.
  `Obeys.bind` lifts a law from the single queries of a script to the whole.
* `Script.Admits` — the exchanges and results that a script can come to, whoever answers.  It is the
  strongest predicate that a script ensures.

What a trace tells of one thing, such as the records that were saved or the blocks that were
announced, is read off its exchanges by `readOff`.
-/

set_option autoImplicit false

namespace WalletScan

/-- An operation that the ledger did not carry out. -/
def Exchange.LedgerFailed : Exchange → Prop
  | ⟨.ledger _, .error _⟩ => True
  | _ => False

/-! ## Reading a trace -/

/-- What the exchanges of a trace tell, in order, where `tell?` is what a single one tells. -/
def readOff {α : Type} (tell? : Exchange → Option α) (tr : List Exchange) : List α :=
  tr.filterMap tell?

section

variable {α : Type} {tell? : Exchange → Option α}

@[simp] theorem readOff_nil : readOff tell? [] = [] := rfl

@[simp] theorem readOff_append (tr tr' : List Exchange) :
    readOff tell? (tr ++ tr') = readOff tell? tr ++ readOff tell? tr' := List.filterMap_append

@[simp] theorem readOff_cons (x : Exchange) (tr : List Exchange) :
    readOff tell? (x :: tr) = (tell? x).toList ++ readOff tell? tr := by
  unfold readOff
  cases h : tell? x with
  | none => rw [List.filterMap_cons_none h]; rfl
  | some a => rw [List.filterMap_cons_some h]; rfl

theorem readOff_eq_nil {tr : List Exchange} (h : ∀ x ∈ tr, tell? x = none) :
    readOff tell? tr = [] :=
  List.filterMap_eq_nil_iff.mpr h

theorem mem_readOff {tr : List Exchange} {a : α} :
    a ∈ readOff tell? tr ↔ ∃ x ∈ tr, tell? x = some a :=
  List.mem_filterMap

end

namespace Script

variable {α β σ : Type}

@[simp] theorem pure_eq (a : α) : (pure a : Script α) = .done a := rfl

@[simp] theorem bind_eq (p : Script α) (f : α → Script β) : p >>= f = p.bind f := rfl

@[simp] theorem done_bind (a : α) (f : α → Script β) : (Script.done a).bind f = f a := rfl

@[simp] theorem halt_bind (h : Halt) (f : α → Script β) :
    (Script.halt h : Script α).bind f = .halt h := rfl

@[simp] theorem ask_bind (q : Query) (next : q.Answer → Script α) (f : α → Script β) :
    (Script.ask q next).bind f = .ask q fun a => (next a).bind f := rfl

/-! ## What every run ensures -/

/-- Whatever is answered, the exchanges of a script and its result satisfy a predicate. -/
def Ensures : Script α → (List Exchange → Except Halt α → Prop) → Prop
  | .done a, Q => Q [] (.ok a)
  | .halt h, Q => Q [] (.error h)
  | .ask q next, Q => ∀ answer, (next answer).Ensures fun tr r => Q (⟨q, answer⟩ :: tr) r

theorem Ensures.run (handler : Handler σ) {p : Script α}
    {Q : List Exchange → Except Halt α → Prop} (h : p.Ensures Q) (s : σ) :
    Q (p.run handler s).trace (p.run handler s).result := by
  induction p generalizing Q s with
  | done a => exact h
  | halt x => exact h
  | ask q next ih => exact ih _ (h (handler q s).1) (handler q s).2

theorem Ensures.mono {p : Script α} {P Q : List Exchange → Except Halt α → Prop}
    (h : p.Ensures P) (hPQ : ∀ tr r, P tr r → Q tr r) : p.Ensures Q := by
  induction p generalizing P Q with
  | done a => exact hPQ _ _ h
  | halt x => exact hPQ _ _ h
  | ask q next ih => exact fun answer => ih answer (h answer) fun tr r => hPQ _ r

theorem Ensures.and {p : Script α} {P Q : List Exchange → Except Halt α → Prop}
    (hP : p.Ensures P) (hQ : p.Ensures Q) : p.Ensures fun tr r => P tr r ∧ Q tr r := by
  induction p generalizing P Q with
  | done a => exact ⟨hP, hQ⟩
  | halt x => exact ⟨hP, hQ⟩
  | ask q next ih => exact fun answer => ih answer (hP answer) (hQ answer)

/-- A sequence does what its first script does and, unless that one halted, what the script does
that its result selects. -/
theorem Ensures.bind {p : Script α} {f : α → Script β}
    {P : List Exchange → Except Halt α → Prop} {Q : List Exchange → Except Halt β → Prop}
    (hp : p.Ensures P)
    (hok : ∀ tr a, P tr (.ok a) → (f a).Ensures fun tr' r => Q (tr ++ tr') r)
    (herr : ∀ tr h, P tr (.error h) → Q tr (.error h)) : (p.bind f).Ensures Q := by
  induction p generalizing P Q with
  | done a => simpa using hok [] a hp
  | halt h => exact herr [] h hp
  | ask q next ih =>
    intro answer
    exact ih answer (hp answer) (fun tr a h => hok _ a h) (fun tr x h => herr _ x h)

/-- A script can go through the given exchanges and end with the given result. -/
def Admits : Script α → List Exchange → Except Halt α → Prop
  | .done a, tr, r => tr = [] ∧ r = .ok a
  | .halt h, tr, r => tr = [] ∧ r = .error h
  | .ask q next, tr, r => ∃ answer tr', tr = ⟨q, answer⟩ :: tr' ∧ (next answer).Admits tr' r

theorem ensures_admits (p : Script α) : p.Ensures p.Admits := by
  induction p with
  | done a => exact ⟨rfl, rfl⟩
  | halt h => exact ⟨rfl, rfl⟩
  | ask q next ih => exact fun answer => (ih answer).mono fun tr r h => ⟨answer, tr, rfl, h⟩

theorem Admits.ensures {p : Script α} {Q : List Exchange → Except Halt α → Prop}
    {tr : List Exchange} {r : Except Halt α} (h : p.Admits tr r) (hQ : p.Ensures Q) : Q tr r := by
  induction p generalizing Q tr with
  | done a =>
    obtain ⟨rfl, rfl⟩ := h
    exact hQ
  | halt x =>
    obtain ⟨rfl, rfl⟩ := h
    exact hQ
  | ask q next ih =>
    obtain ⟨answer, tr', rfl, h⟩ := h
    exact ih answer (Q := fun tr r => Q (⟨q, answer⟩ :: tr) r) h (hQ answer)

/-- If the answers depend on the queries only, a script can do but one thing. -/
theorem Admits.unique {answers : (q : Query) → q.Answer} {p : Script α} {tr tr' : List Exchange}
    {r r' : Except Halt α} (h : p.Admits tr r) (h' : p.Admits tr' r')
    (htr : ∀ x ∈ tr, x.2 = answers x.1) (htr' : ∀ x ∈ tr', x.2 = answers x.1) :
    tr = tr' ∧ r = r' := by
  induction p generalizing tr tr' with
  | done a =>
    obtain ⟨rfl, rfl⟩ := h
    obtain ⟨rfl, rfl⟩ := h'
    exact ⟨rfl, rfl⟩
  | halt x =>
    obtain ⟨rfl, rfl⟩ := h
    obtain ⟨rfl, rfl⟩ := h'
    exact ⟨rfl, rfl⟩
  | ask q next ih =>
    obtain ⟨answer, rest, rfl, h⟩ := h
    obtain ⟨answer', rest', rfl, h'⟩ := h'
    rw [List.forall_mem_cons] at htr htr'
    obtain rfl : answer = answer' := htr.1.trans htr'.1.symm
    obtain ⟨hrest, hr⟩ := ih answer h h' htr.2 htr'.2
    exact ⟨by rw [hrest], hr⟩

/-! ## Laws of traces -/

/-- A property of exchanges, and of whether the script halted after them, that consecutive scripts
keep. -/
structure TraceLaw where
  Holds : List Exchange → Option Halt → Prop
  nil : Holds [] none
  append : ∀ {tr tr' : List Exchange} {h : Option Halt},
    Holds tr none → Holds tr' h → Holds (tr ++ tr') h

/-- Why a script had no result. -/
def haltOf : Except Halt α → Option Halt
  | .ok _ => none
  | .error h => some h

theorem result_of_haltOf {r : Except Halt α} {h : Halt} (heq : haltOf r = some h) :
    r = .error h := by
  cases r with
  | ok a => cases heq
  | error h' => rw [Option.some.inj heq]

/-- Every run of a script keeps a law. -/
def Obeys (p : Script α) (law : TraceLaw) : Prop := p.Ensures fun tr r => law.Holds tr (haltOf r)

section

variable {law : TraceLaw}

theorem Obeys.done (a : α) : (Script.done a).Obeys law := law.nil

theorem Obeys.bind {p : Script α} {f : α → Script β} (hp : p.Obeys law)
    (hf : ∀ a, (f a).Obeys law) : (p.bind f).Obeys law :=
  Ensures.bind hp (fun _ a h => (hf a).mono fun _ _ h' => law.append h h') (fun _ _ h => h)

/-- A sequence keeps a law if the scripts do that the possible results of its first one select. -/
theorem Obeys.bind_of {p : Script α} {f : α → Script β} {P : List Exchange → Except Halt α → Prop}
    (hp : p.Obeys law) (hP : p.Ensures P) (hf : ∀ tr a, P tr (.ok a) → (f a).Obeys law) :
    (p.bind f).Obeys law :=
  Ensures.bind (Ensures.and hp hP)
    (fun tr a h => (hf tr a h.2).mono fun _ _ h' => law.append h.1 h') fun _ _ h => h.1

theorem Obeys.query {q : Query} (h : ∀ answer, law.Holds [⟨q, answer⟩] none) :
    (Script.query q).Obeys law := h

end

/-- Every exchange is justified by the ones before it, and stays so if more come before. -/
def TraceLaw.justified (P : List Exchange → Exchange → Prop)
    (hP : ∀ {past before : List Exchange} {x : Exchange}, P before x → P (past ++ before) x) :
    TraceLaw where
  Holds tr _ := ∀ before x after, tr = before ++ x :: after → P before x
  nil before x after h := by simp at h
  append := by
    intro tr tr' h htr htr' before x after heq
    rcases List.append_eq_append_iff.mp heq with ⟨mid, rfl, hmid⟩ | ⟨mid, rfl, hmid⟩
    · exact hP (htr' mid x after hmid)
    · cases mid with
      | nil => simpa using @hP before _ _ (htr' [] x after (by simpa using hmid.symm))
      | cons y mid =>
        obtain ⟨rfl, rfl⟩ : x = y ∧ after = mid ++ tr' := by simpa using hmid
        exact htr before x mid rfl

/-- An exchange that the ones before it justify may stand between two parts that keep the law. -/
theorem TraceLaw.justified_insert {P : List Exchange → Exchange → Prop}
    (hP : ∀ {past before : List Exchange} {x : Exchange}, P before x → P (past ++ before) x)
    {tr tr' : List Exchange} {x : Exchange} {h h' : Option Halt}
    (htr : (TraceLaw.justified P hP).Holds tr h) (hx : P tr x)
    (htr' : (TraceLaw.justified P hP).Holds tr' h') :
    (TraceLaw.justified P hP).Holds (tr ++ x :: tr') h' := by
  intro before y after heq
  rcases List.append_eq_append_iff.mp heq with ⟨mid, rfl, hmid⟩ | ⟨mid, rfl, hmid⟩
  · cases mid with
    | nil =>
      obtain ⟨rfl, rfl⟩ : x = y ∧ tr' = after := by simpa using hmid
      simpa using hx
    | cons z mid =>
      obtain ⟨rfl, rfl⟩ : x = z ∧ tr' = mid ++ y :: after := by simpa using hmid
      have hy : P mid y := htr' mid y after rfl
      simpa using @hP (tr ++ [x]) _ _ hy
  · cases mid with
    | nil =>
      obtain ⟨rfl, rfl⟩ : y = x ∧ after = tr' := by simpa using hmid
      simpa using hx
    | cons z mid =>
      obtain ⟨rfl, rfl⟩ : y = z ∧ after = mid ++ x :: tr' := by simpa using hmid
      exact htr before y mid rfl

/-- Every exchange satisfies a predicate. -/
def TraceLaw.each (K : Exchange → Prop) : TraceLaw where
  Holds tr _ := ∀ x ∈ tr, K x
  nil := by simp
  append h h' := List.forall_mem_append.mpr ⟨h, h'⟩

/-- A failed ledger operation is the last exchange, and the script halts with its cause. -/
def TraceLaw.ledgerFailsLast : TraceLaw where
  Holds tr h := ∀ before op cause after, tr = before ++ ⟨.ledger op, .error cause⟩ :: after →
    after = [] ∧ h = some (.failed (.ledger cause))
  nil before op cause after h := by simp at h
  append := by
    intro tr tr' h htr htr' before op cause after heq
    rcases List.append_eq_append_iff.mp heq with ⟨mid, rfl, hmid⟩ | ⟨mid, rfl, hmid⟩
    · exact htr' mid op cause after hmid
    · cases mid with
      | nil => exact htr' [] op cause after (by simpa using hmid.symm)
      | cons y mid =>
        obtain ⟨rfl, rfl⟩ : ⟨.ledger op, .error cause⟩ = y ∧ after = mid ++ tr' := by
          simpa using hmid
        exact absurd (htr before op cause mid rfl).2 (by simp)

/-- Every exchange satisfies a predicate, and the ledger fails at most in the last one. -/
def TraceLaw.orderly (K : Exchange → Prop) : TraceLaw where
  Holds tr h := (∀ x ∈ tr, K x) ∧ TraceLaw.ledgerFailsLast.Holds tr h
  nil := ⟨by simp, TraceLaw.ledgerFailsLast.nil⟩
  append h h' :=
    ⟨fun x hx => (List.mem_append.mp hx).elim (h.1 x) (h'.1 x),
      TraceLaw.ledgerFailsLast.append h.2 h'.2⟩

/-- Every exchange of a script satisfies a predicate, and a failed ledger operation ends it. -/
abbrev Orderly (p : Script α) (K : Exchange → Prop) : Prop := p.Obeys (.orderly K)

section

variable {K : Exchange → Prop}

theorem Orderly.only {p : Script α} (h : p.Orderly K) :
    p.Ensures fun tr _ => ∀ x ∈ tr, K x := Ensures.mono h fun _ _ h => h.1

theorem Orderly.halt (h : Halt) : (Script.halt h : Script α).Orderly K :=
  ⟨by simp, by simp [TraceLaw.ledgerFailsLast]⟩

theorem singleton_eq_append_cons {x y : Exchange} {before after : List Exchange}
    (h : [x] = before ++ y :: after) : x = y ∧ after = [] := by
  cases before with
  | nil => simpa [eq_comm] using h
  | cons z before => simp at h

/-- A single exchange that is no failed ledger operation. -/
theorem orderly_single {x : Exchange} {h : Option Halt} (hx : K x)
    (hledger : ∀ op cause, x ≠ ⟨.ledger op, .error cause⟩) :
    (TraceLaw.orderly K).Holds [x] h := by
  refine ⟨by simpa using hx, fun before op cause after heq => ?_⟩
  exact absurd (singleton_eq_append_cons heq).1 (hledger op cause)

theorem store_ensures (op : LedgerOp) :
    (Script.store op).Ensures fun tr r =>
      (∃ answer, tr = [⟨.ledger op, .ok answer⟩] ∧ r = .ok answer) ∨
        ∃ cause, tr = [⟨.ledger op, .error cause⟩] ∧ r = .error (.failed (.ledger cause)) := by
  rintro (cause | answer)
  · exact .inr ⟨cause, rfl, rfl⟩
  · exact .inl ⟨answer, rfl, rfl⟩

end

/-- An orderly script that halts only because the ledger failed. -/
def TraceLaw.quiet (K : Exchange → Prop) : TraceLaw where
  Holds tr h := (TraceLaw.orderly K).Holds tr h ∧ (h.isSome → ∃ x ∈ tr, x.LedgerFailed)
  nil := ⟨(TraceLaw.orderly K).nil, by simp⟩
  append h h' := by
    refine ⟨(TraceLaw.orderly K).append h.1 h'.1, fun hhalt => ?_⟩
    obtain ⟨x, hx, hfailed⟩ := h'.2 hhalt
    exact ⟨x, List.mem_append_right _ hx, hfailed⟩

/-- Every exchange of a script satisfies a predicate, and it halts exactly if a ledger operation
fails, which is then the last. -/
abbrev Quiet (p : Script α) (K : Exchange → Prop) : Prop := p.Obeys (.quiet K)

section

variable {K : Exchange → Prop}

theorem Quiet.orderly {p : Script α} (h : p.Quiet K) : p.Orderly K :=
  Ensures.mono h fun _ _ h => h.1

theorem Quiet.mono {K' : Exchange → Prop} {p : Script α} (h : p.Quiet K)
    (hK : ∀ x, K x → K' x) : p.Quiet K' :=
  Ensures.mono h fun _ _ h => ⟨⟨fun x hx => hK x (h.1.1 x hx), h.1.2⟩, h.2⟩

theorem Quiet.query {q : Query} (h : ∀ answer, K ⟨q, answer⟩) (hq : ∀ op, q ≠ .ledger op) :
    (Script.query q).Quiet K :=
  fun answer => ⟨orderly_single (h answer) fun op _ heq => hq op (congrArg Sigma.fst heq),
    by simp [haltOf]⟩

theorem Quiet.chain {q : ChainQuery} (h : ∀ answer, K ⟨.chain q, answer⟩) :
    (Script.chain q).Quiet K := Quiet.query h (by simp)

theorem Quiet.report {event : StatusEvent} (h : K ⟨.report event, ()⟩) :
    (Script.report event).Quiet K := Quiet.query (fun _ => h) (by simp)

theorem Quiet.store {op : LedgerOp} (h : ∀ answer, K ⟨.ledger op, answer⟩) :
    (Script.store op).Quiet K := by
  rintro (cause | answer)
  · refine ⟨⟨by simpa using h _, fun before op' cause' after heq => ?_⟩, fun _ => ?_⟩
    · obtain ⟨hx, rfl⟩ := singleton_eq_append_cons heq
      cases hx
      exact ⟨rfl, rfl⟩
    · exact ⟨_, List.mem_singleton_self _, trivial⟩
  · exact ⟨orderly_single (h _) (by rintro op' cause' ⟨⟩), by simp [haltOf]⟩

theorem Orderly.announce {header : BlockHeader} {isFork : Bool}
    (h : ∀ answer, K ⟨.announce header isFork, answer⟩) :
    (Script.announce header isFork).Orderly K := by
  rintro (detail | ⟨⟩)
  · exact orderly_single (h _) (by simp)
  · exact orderly_single (h _) (by simp)

end

/-! ## Laws that look back -/

/-- Every run of a script keeps a law if the given exchanges come before it. -/
def ObeysAfter (past : List Exchange) (p : Script α) (law : TraceLaw) : Prop :=
  p.Ensures fun tr r => law.Holds (past ++ tr) (haltOf r)

section

variable {law : TraceLaw} {past : List Exchange}

theorem ObeysAfter.done {a : α} (h : law.Holds past none) :
    (Script.done a).ObeysAfter past law := by
  simpa [ObeysAfter, Ensures, haltOf] using h

theorem Obeys.after {p : Script α} (hp : p.Obeys law) (h : law.Holds past none) :
    p.ObeysAfter past law := Ensures.mono hp fun _ _ htr => law.append h htr

theorem ObeysAfter.obeys {p : Script α} (h : p.ObeysAfter [] law) : p.Obeys law := h

theorem ObeysAfter.bind {p : Script α} {f : α → Script β}
    {P : List Exchange → Except Halt α → Prop} (hp : p.Ensures P)
    (hok : ∀ tr a, P tr (.ok a) → (f a).ObeysAfter (past ++ tr) law)
    (herr : ∀ tr h, P tr (.error h) → law.Holds (past ++ tr) (some h)) :
    (p.bind f).ObeysAfter past law :=
  Ensures.bind hp
    (fun tr a h => (hok tr a h).mono fun tr' _ h' => by rwa [List.append_assoc] at h') herr

theorem ObeysAfter.store {op : LedgerOp} {f : op.Answer → Script α}
    (hok : ∀ answer, (f answer).ObeysAfter (past ++ [⟨.ledger op, .ok answer⟩]) law)
    (herr : ∀ cause,
      law.Holds (past ++ [⟨.ledger op, .error cause⟩]) (some (.failed (.ledger cause)))) :
    ((Script.store op).bind f).ObeysAfter past law := by
  refine ObeysAfter.bind (store_ensures op) ?_ ?_
  · rintro _ a (⟨answer, rfl, ha⟩ | ⟨cause, -, ⟨⟩⟩)
    cases ha
    exact hok a
  · rintro _ h (⟨answer, -, ⟨⟩⟩ | ⟨cause, rfl, hh⟩)
    cases hh
    exact herr cause

end

/-! ## Scripts that always have a result -/

/-- Whatever is answered, a script has a result, and its exchanges and the result satisfy a
predicate. -/
def Yields (p : Script α) (Q : List Exchange → α → Prop) : Prop :=
  p.Ensures fun tr r => ∃ a, r = .ok a ∧ Q tr a

theorem Yields.done {Q : List Exchange → α → Prop} {a : α} (h : Q [] a) :
    (Script.done a).Yields Q := ⟨a, rfl, h⟩

theorem Yields.query {q : Query} {Q : List Exchange → q.Answer → Prop}
    (h : ∀ answer, Q [⟨q, answer⟩] answer) : (Script.query q).Yields Q :=
  fun answer => ⟨answer, rfl, h answer⟩

theorem Yields.mono {p : Script α} {P Q : List Exchange → α → Prop} (h : p.Yields P)
    (hPQ : ∀ tr a, P tr a → Q tr a) : p.Yields Q :=
  Ensures.mono h fun _ _ ⟨a, hr, ha⟩ => ⟨a, hr, hPQ _ a ha⟩

theorem Yields.admits {p : Script α} {Q : List Exchange → α → Prop} (h : p.Yields Q) :
    p.Yields fun tr a => p.Admits tr (.ok a) ∧ Q tr a := by
  apply Ensures.mono (Ensures.and (ensures_admits p) h)
  rintro tr r ⟨hadmits, a, rfl, hQ⟩
  exact ⟨a, rfl, hadmits, hQ⟩

theorem Yields.bind {p : Script α} {f : α → Script β} {P : List Exchange → α → Prop}
    {Q : List Exchange → β → Prop} (hp : p.Yields P)
    (hf : ∀ tr a, P tr a → (f a).Yields fun tr' b => Q (tr ++ tr') b) : (p.bind f).Yields Q := by
  refine Ensures.bind hp ?_ ?_
  · rintro tr a ⟨a', ha', h⟩
    cases ha'
    exact hf tr a h
  · rintro tr x ⟨a', ha', _⟩
    cases ha'

/-- A sequence after a script that always has a result. -/
theorem Yields.then {p : Script α} {f : α → Script β} {P : List Exchange → α → Prop}
    {Q : List Exchange → Except Halt β → Prop} (hp : p.Yields P)
    (hf : ∀ tr a, P tr a → (f a).Ensures fun tr' r => Q (tr ++ tr') r) : (p.bind f).Ensures Q := by
  refine Ensures.bind hp ?_ ?_
  · rintro tr a ⟨a', ha', h⟩
    cases ha'
    exact hf tr a h
  · rintro tr x ⟨a', ha', _⟩
    cases ha'

end Script

end WalletScan
