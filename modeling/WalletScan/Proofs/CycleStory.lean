import WalletScan.Proofs.AdvanceTermination
import WalletScan.Proofs.FaultyLedgers
import WalletScan.Proofs.LinkedHistory

/-!
# The story that a cycle tells

While a cycle runs it reports its status, tells the observers of blocks, moves the cursor of the
ledger and counts for its own report.  These four views are updated one after the other and by
different parts of the cycle.

* `Story` — what may be told on the way from one place of an advance to another, step by step.
* `Carries` — the exchanges of an advance: what they tell, and which cursor they leave written.
* `cycle_walks` — the exchanges of a whole cycle, whatever is answered.
* `cycle_tells_one_story` — status events, announcements, report and persisted cursor agree.
-/

set_option autoImplicit false

namespace WalletScan

open Script

/-! ## What is told and written -/

/-- What a cycle tells while it runs: the observers hear of a block, or the status is reported. -/
inductive Notice where
  | announced (header : BlockHeader) (isFork : Bool)
  | reported (event : StatusEvent)
deriving DecidableEq, Repr

namespace Notice

/-- A report of one more accepted block. -/
def isProgress : Notice → Bool
  | .reported (.progress _ _) => true
  | _ => false

/-- A report of one more abandoned block. -/
def isFork : Notice → Bool
  | .reported (.forkDetected _ _) => true
  | _ => false

end Notice

namespace Exchange

/-- What an exchange tells. -/
def notice? : Exchange → Option Notice
  | ⟨.announce header isFork, _⟩ => some (.announced header isFork)
  | ⟨.report event, _⟩ => some (.reported event)
  | _ => none

/-- The cursor that an exchange wrote. -/
def written? : Exchange → Option Cursor
  | ⟨.ledger (.setCursor c), .ok ()⟩ => some c
  | _ => none

/-- An exchange tells nothing and writes no cursor. -/
structure IsSilent (x : Exchange) : Prop where
  notice : x.notice? = none
  written : x.written? = none

/-- A question of a loop that leaves the position of the ledger. -/
def IsQuestion : Exchange → Prop
  | ⟨.taskState, _⟩ => True
  | x => x.IsDrain

/-- The block in an answer, if there is one, has the height that was asked for. -/
def AtHeight : Exchange → Prop
  | ⟨.chain (.block height), .ok b⟩ => b.height = height
  | ⟨.ledger (.getBlock height), .ok (some b)⟩ => b.height = height
  | _ => True

theorem IsDrain.isSilent {x : Exchange} (h : x.IsDrain) : x.IsSilent := by
  obtain ⟨q, a⟩ := x
  rcases q with _ | op | _ | _ | _ | _
  case ledger => cases op <;> first | exact ⟨rfl, rfl⟩ | exact h.elim
  all_goals first | exact ⟨rfl, rfl⟩ | exact h.elim

theorem IsQuestion.isSilent {x : Exchange} (h : x.IsQuestion) : x.IsSilent := by
  obtain ⟨q, a⟩ := x
  cases q with
  | taskState => exact ⟨rfl, rfl⟩
  | _ => exact IsDrain.isSilent h

theorem isSilent_ledger {op : LedgerOp} (hop : ∀ c, op ≠ .setCursor c)
    (answer : Except LedgerError op.Answer) : IsSilent ⟨.ledger op, answer⟩ := by
  cases op
  case setCursor c => exact absurd rfl (hop c)
  all_goals exact ⟨rfl, rfl⟩

theorem IsBlockRead.isSilent {x : Exchange} (h : x.IsBlockRead) : x.IsSilent := by
  obtain ⟨q, a⟩ := x
  rcases q with _ | op | _ | _ | _ | _
  case ledger => cases op <;> first | exact ⟨rfl, rfl⟩ | exact h.elim
  all_goals first | exact ⟨rfl, rfl⟩ | exact h.elim

end Exchange

open Exchange (notice? written?)

/-- The cursor that some exchanges wrote last. -/
def writtenIn (tr : List Exchange) : Option Cursor := (readOff written? tr).getLast?

@[simp] theorem writtenIn_append (tr tr' : List Exchange) :
    writtenIn (tr ++ tr') = (writtenIn tr').or (writtenIn tr) := by
  unfold writtenIn
  rw [readOff_append, List.getLast?_append]

@[simp] theorem writtenIn_nil : writtenIn [] = none := rfl

@[simp] theorem writtenIn_cons (x : Exchange) (tr : List Exchange) :
    writtenIn (x :: tr) = (writtenIn tr).or x.written? := by
  rw [← List.singleton_append, writtenIn_append]
  unfold writtenIn
  cases h : x.written? <;> simp [h]

theorem notices_silent {tr : List Exchange} (h : ∀ x ∈ tr, x.IsSilent) : readOff notice? tr = [] :=
  readOff_eq_nil fun x hx => (h x hx).notice

theorem writtenIn_silent {tr : List Exchange} (h : ∀ x ∈ tr, x.IsSilent) : writtenIn tr = none := by
  unfold writtenIn
  rw [readOff_eq_nil fun x hx => (h x hx).written, List.getLast?_nil]

theorem notices_behind_silent {before : List Exchange} (h : ∀ x ∈ before, x.IsSilent)
    (tr : List Exchange) : readOff notice? (before ++ tr) = readOff notice? tr := by
  rw [readOff_append, notices_silent h, List.nil_append]

theorem writtenIn_behind_silent {before : List Exchange} (h : ∀ x ∈ before, x.IsSilent)
    (tr : List Exchange) : writtenIn (before ++ tr) = writtenIn tr := by
  rw [writtenIn_append, writtenIn_silent h, Option.or_none]

/-! ## Stories -/

/-- What is told on the way of an advance from one place to another.  An accepted block is announced
right before the progress is reported; an abandoned one may be announced right before the fork is
reported.  Heights never wrap around. -/
inductive Story (p : Engine.Progress) : List Notice → Engine.Progress → Prop
  | opening : Story p [] p
  | progress {told : List Notice} {q : Engine.Progress} {header : BlockHeader}
    (h : Story p told q) (hroom : q.cursor.height < q.cursor.height + 1)
    (hheight : header.height = q.cursor.height + 1) :
    Story p
      (told ++ [.announced header false,
        .reported (.progress (q.cursor.height + 1) (q.blocks + 1))])
      { q with cursor := header.cursor, blocks := q.blocks + 1 }
  | fork {told : List Notice} {q : Engine.Progress} {rewound : Cursor}
    {abandoned : Option BlockHeader} (h : Story p told q)
    (habandoned : ∀ header, abandoned = some header → header.height = q.cursor.height)
    (hheight : rewound.height = q.cursor.below) :
    Story p
      (told ++ (abandoned.toList.map (.announced · true) ++
        [.reported (.forkDetected q.cursor.height (q.cursor.below))]))
      { q with cursor := rewound, forks := q.forks + 1 }

theorem Story.trans {p q r : Engine.Progress} {told told' : List Notice} (h : Story p told q)
    (h' : Story q told' r) : Story p (told ++ told') r := by
  induction h' with
  | opening => simpa using h
  | progress _ hroom hheight ih =>
    rw [← List.append_assoc]
    exact ih.progress hroom hheight
  | fork _ habandoned hheight ih =>
    rw [← List.append_assoc]
    exact ih.fork habandoned hheight

theorem countP_announced {test : Notice → Bool} (abandoned : Option BlockHeader)
    (htest : ∀ header, test (.announced header true) = false) :
    (abandoned.toList.map (Notice.announced · true)).countP test = 0 := by
  cases abandoned <;> simp [htest]

/-- The counters of an advance count the reports. -/
theorem Story.counts {p q : Engine.Progress} {told : List Notice} (h : Story p told q) :
    q.blocks = p.blocks + told.countP Notice.isProgress ∧
      q.forks = p.forks + told.countP Notice.isFork := by
  induction h with
  | opening => exact ⟨rfl, rfl⟩
  | progress _ _ _ ih =>
    rw [List.countP_append, List.countP_append]
    exact ⟨by simp [Notice.isProgress, ih.1, Nat.add_assoc], by simp [Notice.isFork, ih.2]⟩
  | @fork _ _ _ abandoned _ _ _ ih =>
    have hprogress := @countP_announced Notice.isProgress abandoned fun _ => rfl
    have hfork := @countP_announced Notice.isFork abandoned fun _ => rfl
    simp only [List.countP_append, hprogress, hfork]
    exact ⟨by simp [Notice.isProgress, ih.1], by simp [Notice.isFork, ih.2, Nat.add_assoc]⟩

/-! ## The parts of an iteration -/

section

variable {α : Type}

theorem Ensures.store {op : LedgerOp} {f : op.Answer → Script α}
    {Q : List Exchange → Except Halt α → Prop}
    (hok : ∀ answer, (f answer).Ensures fun tr r => Q (⟨.ledger op, .ok answer⟩ :: tr) r)
    (herr : ∀ cause, Q [⟨.ledger op, .error cause⟩] (.error (.failed (.ledger cause)))) :
    ((Script.store op).bind f).Ensures Q := by
  rintro (cause | answer)
  · exact herr cause
  · exact hok answer

theorem Ensures.announce {header : BlockHeader} {isFork : Bool} {f : Unit → Script α}
    {Q : List Exchange → Except Halt α → Prop}
    (hok : (f ()).Ensures fun tr r => Q (⟨.announce header isFork, .ok ()⟩ :: tr) r)
    (hdied : ∀ detail, Q [⟨.announce header isFork, .error detail⟩] (.error (.crashed detail))) :
    ((Script.announce header isFork).bind f).Ensures Q := by
  rintro (detail | ⟨⟩)
  · exact hdied detail
  · exact hok

end

/-- No rewind goes below the lowest block. -/
theorem below_ne_zero (c : Cursor) : c.below ≠ 0 := by
  have hbelow : c.below = if lowered c.height 1 ≤ 1 then 1 else lowered c.height 1 := rfl
  grind

/-- The block below an abandoned one has the height that it is looked for at. -/
theorem ancestor_atHeight (abandoned target : UInt64) :
    (Engine.ancestor abandoned target).Ensures fun tr r => ∀ b, r = .ok (some b) →
      (∀ x ∈ tr, x.AtHeight) → b.height = target := by
  unfold Engine.ancestor
  extract_lets rest
  have hfetch : (rest none).Ensures fun tr r => ∀ b, r = .ok (some b) →
      (∀ x ∈ tr, x.AtHeight) → b.height = target := by
    rintro (cause | b)
    · rintro b ⟨⟩
    · refine Ensures.store (fun _ => ?_) fun cause => ?_
      · rintro _ ⟨⟩ hheights
        exact hheights _ List.mem_cons_self
      · rintro _ ⟨⟩
  split
  · exact hfetch
  · refine Ensures.store ?_ fun cause => ?_
    · rintro (_ | b)
      · refine Ensures.mono hfetch fun tr r h b hb hheights => ?_
        exact h b hb fun x hx => hheights x (List.mem_cons_of_mem _ hx)
      · rintro _ ⟨⟩ hheights
        exact hheights _ List.mem_cons_self
    · rintro _ ⟨⟩

/-- The exchanges of a rewind from a cursor up to the write of the new one: the records there are
dropped, the block there is looked up, and the block below is searched for. -/
def rewindOpening (c : Cursor) (deleted : Nat) (stored : Option Block) (reads : List Exchange) :
    List Exchange :=
  ⟨.ledger (.deleteUnscanned c.height), .ok deleted⟩ ::
    ⟨.ledger (.getBlock c.height), .ok stored⟩ :: reads

theorem rewindOpening_silent (c : Cursor) (deleted : Nat) (stored : Option Block)
    {reads : List Exchange} (hreads : ∀ x ∈ reads, x.IsBlockRead) :
    ∀ x ∈ rewindOpening c deleted stored reads, x.IsSilent := by
  unfold rewindOpening
  rw [List.forall_mem_cons, List.forall_mem_cons]
  exact ⟨⟨rfl, rfl⟩, ⟨rfl, rfl⟩, fun x hx => (hreads x hx).isSilent⟩

/-- The exchanges and the result of a rewind. -/
inductive Rewinds (c : Cursor) : List Exchange → Except Halt (Option Cursor) → Prop
  /-- There is no ancestor, or the ledger failed. -/
  | still {tr : List Exchange} {r : Except Halt (Option Cursor)}
    (hsilent : ∀ x ∈ tr, x.IsSilent) (hr : ∀ rewound, r ≠ .ok (some rewound)) : Rewinds c tr r
  | moved {deleted : Nat} {stored : Option Block} {reads : List Exchange} {b : Block}
    (hreads : ∀ x ∈ reads, x.IsBlockRead)
    (hheight : (∀ x ∈ reads, x.AtHeight) → b.height = c.below) :
    Rewinds c
      (rewindOpening c deleted stored reads ++ ⟨.ledger (.setCursor b.header.cursor), .ok ()⟩ ::
        (stored.toList.map (fun a => ⟨.announce a.header true, .ok ()⟩) ++
          [⟨.report (.forkDetected c.height b.height), ()⟩]))
      (.ok (some b.header.cursor))
  /-- An observer died of the abandoned block. -/
  | died {deleted : Nat} {a : Block} {reads : List Exchange} {rewound : Cursor} {detail : String}
    (hreads : ∀ x ∈ reads, x.IsBlockRead) :
    Rewinds c
      (rewindOpening c deleted (some a) reads ++ [⟨.ledger (.setCursor rewound), .ok ()⟩,
        ⟨.announce a.header true, .error detail⟩])
      (.error (.crashed detail))

theorem rewind_ensures (c : Cursor) : (Engine.rewind c).Ensures (Rewinds c) := by
  unfold Engine.rewind
  refine Ensures.store (fun deleted => ?_) fun _ => .still (by simp [Exchange.isSilent_ledger])
    (by simp)
  refine Ensures.store (fun stored => ?_) fun _ => .still (by simp [Exchange.isSilent_ledger])
    (by simp)
  refine Ensures.bind (Ensures.and (Engine.ancestor_quiet _ _).orderly.only
    (ancestor_atHeight c.height c.below)) ?_ fun reads _ h => .still ?_ (by simp)
  · rintro reads found ⟨hreads, hheight⟩
    have hsilent := rewindOpening_silent c deleted stored hreads
    cases found with
    | none => exact .still (by simpa [rewindOpening] using hsilent) (by simp)
    | some b =>
      refine Ensures.store (fun u => ?_) fun _ => .still ?_ (by simp)
      · cases stored with
        | none =>
          rintro ⟨⟩
          exact .moved hreads (hheight b rfl)
        | some a =>
          refine Ensures.announce ?_ fun _ => .died hreads
          rintro ⟨⟩
          exact .moved hreads (hheight b rfl)
      · rw [← List.cons_append, ← List.cons_append, List.forall_mem_append]
        exact ⟨hsilent, List.forall_mem_singleton.mpr ⟨rfl, rfl⟩⟩
  · exact rewindOpening_silent c deleted stored h.1

/-- What a rewind tells and writes: nothing if it finds no ancestor, and else the cached block that
it abandons, if there is one, and the fork. -/
theorem rewind_tells (c : Cursor) :
    (Engine.rewind c).Ensures fun tr r =>
      match r with
      | .ok none => ∀ x ∈ tr, x.IsSilent
      | .ok (some rewound) => ∃ abandoned : Option BlockHeader,
        readOff notice? tr = abandoned.toList.map (.announced · true) ++
          [.reported (.forkDetected c.height rewound.height)] ∧
        writtenIn tr = some rewound ∧
        ((∀ x ∈ tr, x.AtHeight) → rewound.height = c.below ∧
          ∀ header, abandoned = some header → header.height = c.height)
      | .error _ => True := by
  refine Ensures.mono (rewind_ensures c) fun tr r h => ?_
  cases h with
  | still hsilent hr =>
    rcases r with halt | _ | rewound
    · trivial
    · exact hsilent
    · exact absurd rfl (hr rewound)
  | @moved deleted stored reads b hreads hheight =>
    have hsilent := rewindOpening_silent c deleted stored hreads
    refine ⟨stored.map Block.header, ?_, ?_, fun hheights =>
      ⟨hheight fun x hx => hheights x ?_, ?_⟩⟩
    · rw [notices_behind_silent hsilent]
      cases stored <;> rfl
    · rw [writtenIn_behind_silent hsilent]
      cases stored <;> rfl
    · exact List.mem_append_left _ (by simp [rewindOpening, hx])
    · cases stored with
      | none => rintro _ ⟨⟩
      | some a =>
        rintro _ ⟨⟩
        exact hheights ⟨.ledger (.getBlock c.height), .ok (some a)⟩ (by simp [rewindOpening])
  | died => trivial

/-- An acceptance tells of its block and writes the cursor on it. -/
theorem accept_tells (e : Engine) (b : Block) :
    (e.accept b).Ensures fun tr r => r = .ok () →
      readOff notice? tr = [.announced b.header false] ∧ writtenIn tr = some b.header.cursor := by
  unfold Engine.accept
  refine Ensures.bind (runBatch_quiet e b.batch).orderly.only ?_ ?_
  · intro batch failed hbatch
    have hsilent : ∀ x ∈ batch, x.IsSilent := fun x hx => (hbatch x hx).isRescan.1.isSilent
    refine Ensures.store (fun _ => ?_) fun _ => by simp
    refine Ensures.store (fun _ => ?_) fun _ => by simp
    rintro (detail | ⟨⟩)
    · rintro ⟨⟩
    · rintro -
      exact ⟨notices_behind_silent hsilent _, writtenIn_behind_silent hsilent _⟩
  · rintro batch h - ⟨⟩

/-! ## An advance -/

/-- What some exchanges do that carry an advance from one place to another: they tell a story, if
the blocks in their answers have the heights asked for, and the cursor written last is the one that
the advance has come to. -/
structure Carries (p : Engine.Progress) (tr : List Exchange) (q : Engine.Progress) : Prop where
  written : writtenIn tr = if readOff notice? tr = [] then none else some q.cursor
  still : readOff notice? tr = [] → q = p
  moved : readOff notice? tr ≠ [] → p.blocks + p.forks < q.blocks + q.forks
  story : (∀ x ∈ tr, x.AtHeight) → Story p (readOff notice? tr) q

section

variable {p q r : Engine.Progress} {tr tr' : List Exchange}

theorem Carries.idle (p : Engine.Progress) (h : ∀ x ∈ tr, x.IsSilent) : Carries p tr p := by
  have hnotices := notices_silent h
  refine ⟨?_, fun _ => rfl, fun hsome => absurd hnotices hsome, fun _ => ?_⟩
  · rw [if_pos hnotices, writtenIn_silent h]
  · rw [hnotices]
    exact .opening

/-- Exchanges that tell of a move and write where it led to. -/
theorem Carries.of_told (htold : readOff notice? tr ≠ []) (hwritten : writtenIn tr = some q.cursor)
    (hmoved : p.blocks + p.forks < q.blocks + q.forks)
    (hstory : (∀ x ∈ tr, x.AtHeight) → Story p (readOff notice? tr) q) : Carries p tr q := by
  refine ⟨?_, fun heq => absurd heq htold, fun _ => hmoved, hstory⟩
  rw [if_neg htold, hwritten]

theorem Carries.trans (h : Carries p tr q) (h' : Carries q tr' r) : Carries p (tr ++ tr') r := by
  by_cases hlater : readOff notice? tr' = []
  · obtain rfl := h'.still hlater
    have hnotices : readOff notice? (tr ++ tr') = readOff notice? tr := by
      rw [readOff_append, hlater, List.append_nil]
    have hwritten : writtenIn (tr ++ tr') = writtenIn tr := by
      rw [writtenIn_append, h'.written, if_pos hlater, Option.none_or]
    refine ⟨?_, ?_, ?_, fun hheights => ?_⟩
    · rw [hnotices, hwritten]
      exact h.written
    · rw [hnotices]
      exact h.still
    · rw [hnotices]
      exact h.moved
    · rw [hnotices]
      exact h.story fun x hx => hheights x (List.mem_append_left _ hx)
  · have hsome : readOff notice? (tr ++ tr') ≠ [] := by
      rw [readOff_append]
      exact fun heq => hlater (List.append_eq_nil_iff.mp heq).2
    refine ⟨?_, fun heq => absurd heq hsome, fun _ => ?_, fun hheights => ?_⟩
    · rw [if_neg hsome, writtenIn_append, h'.written, if_neg hlater, Option.some_or]
    · have hstep := h'.moved hlater
      by_cases hearlier : readOff notice? tr = []
      · rwa [h.still hearlier] at hstep
      · exact Nat.lt_trans (h.moved hearlier) hstep
    · rw [readOff_append]
      rw [List.forall_mem_append] at hheights
      exact (h.story hheights.1).trans (h'.story hheights.2)

end

/-- An iteration over a served block goes back to the block below or on to the served one. -/
theorem advanceOver_carries (e : Engine) {p : Engine.Progress}
    (hroom : p.cursor.height < p.cursor.height + 1) (b : Block) :
    (e.advanceOver p b).Ensures fun tr r =>
      match r with
      | .ok (.moved q) => Carries p (⟨.chain (.block (p.cursor.height + 1)), .ok b⟩ :: tr) q
      | .ok _ => ∀ x ∈ tr, x.IsSilent
      | .error _ => True := by
  unfold Engine.advanceOver
  split
  · refine Ensures.bind (rewind_tells p.cursor) ?_ fun _ _ _ => trivial
    rintro tr (_ | rewound) h
    · simpa [Ensures] using h
    · obtain ⟨abandoned, hnotices, hwritten, hheights⟩ := h
      show Carries p (⟨.chain (.block (p.cursor.height + 1)), .ok b⟩ :: (tr ++ [])) _
      rw [List.append_nil]
      have htold : readOff notice? (⟨.chain (.block (p.cursor.height + 1)), .ok b⟩ :: tr) =
          abandoned.toList.map (.announced · true) ++
            [.reported (.forkDetected p.cursor.height rewound.height)] := hnotices
      refine .of_told ?_ ?_ ?_ fun hserved => ?_
      · rw [htold]
        simp
      · rw [writtenIn_cons, hwritten]
        rfl
      · show p.blocks + p.forks < p.blocks + (p.forks + 1)
        omega
      · obtain ⟨hbelow, habandoned⟩ := hheights (List.forall_mem_cons.mp hserved).2
        rw [htold, hbelow]
        exact Story.opening.fork habandoned hbelow
  · refine Ensures.bind (accept_tells e b) ?_ fun _ _ _ => trivial
    rintro tr _ h
    obtain ⟨hnotices, hwritten⟩ := h rfl
    rintro ⟨⟩
    show Carries p (⟨.chain (.block (p.cursor.height + 1)), .ok b⟩ ::
      (tr ++ [⟨.report (.progress b.header.height (p.blocks + 1)), ()⟩])) _
    have htold : readOff notice? (⟨.chain (.block (p.cursor.height + 1)), .ok b⟩ ::
        (tr ++ [⟨.report (.progress b.header.height (p.blocks + 1)), ()⟩])) =
        [.announced b.header false, .reported (.progress b.header.height (p.blocks + 1))] := by
      rw [readOff_cons, readOff_append, hnotices]
      rfl
    refine .of_told ?_ ?_ ?_ fun hserved => ?_
    · rw [htold]
      simp
    · rw [writtenIn_cons, writtenIn_append, hwritten]
      rfl
    · show p.blocks + p.forks < p.blocks + 1 + p.forks
      omega
    · have hheight : b.header.height = p.cursor.height + 1 := (List.forall_mem_cons.mp hserved).1
      rw [htold, hheight]
      exact Story.opening.progress hroom hheight

/-- Where an advance stands after an iteration. -/
def Engine.Iteration.place (p : Engine.Progress) : Engine.Iteration → Engine.Progress
  | .moved q => q
  | _ => p

/-- An iteration ends with its questions, or goes over the block that is served below the tip. -/
theorem advanceOnce_ensures (e : Engine) (p : Engine.Progress)
    {Q : List Exchange → Except Halt Engine.Iteration → Prop}
    (hends : ∀ tr i, (∀ x ∈ tr, x.IsQuestion) → i.place p = p → Q tr (.ok i))
    (hserved : ∀ opening b, (∀ x ∈ opening, x.IsQuestion) →
      p.cursor.height < p.cursor.height + 1 → (e.advanceOver p b).Ensures fun tr r =>
        Q (opening ++ ⟨.chain (.block (p.cursor.height + 1)), .ok b⟩ :: tr) r) :
    (e.advanceOnce p).Ensures Q := by
  unfold Engine.advanceOnce
  intro state
  cases state with
  | stopped => exact hends _ _ (List.forall_mem_singleton.mpr trivial) rfl
  | idle => exact hends _ _ (List.forall_mem_singleton.mpr trivial) rfl
  | paused => exact hends _ _ (List.forall_mem_singleton.mpr trivial) rfl
  | running =>
    have hasked : ∀ answer : Except ChainError UInt64,
        ∀ x ∈ [⟨.taskState, .running⟩, ⟨.chain .tip, answer⟩], Exchange.IsQuestion x := by
      simp [Exchange.IsQuestion, Exchange.IsDrain]
    rintro (cause | tip)
    · exact hends _ _ (hasked _) rfl
    · by_cases hle : tip ≤ p.cursor.height
      · simp only [done_bind, hle, if_true]
        exact hends _ _ (hasked _) rfl
      · simp only [done_bind, hle, if_false]
        have hroom : p.cursor.height < p.cursor.height + 1 := by grind
        rintro (cause | b)
        · refine hends _ _ ?_ rfl
          simp [Exchange.IsQuestion, Exchange.IsDrain]
        · exact hserved _ b (hasked (.ok tip)) hroom

theorem advanceOnce_carries (e : Engine) (p : Engine.Progress) :
    (e.advanceOnce p).Ensures fun tr r => ∀ i, r = .ok i → Carries p tr (i.place p) := by
  refine advanceOnce_ensures e p ?_ ?_
  · rintro tr i hasked hplace _ ⟨⟩
    rw [hplace]
    exact .idle p fun x hx => (hasked x hx).isSilent
  · intro opening b hasked hroom
    refine Ensures.mono (advanceOver_carries e hroom b) ?_
    rintro tr _ h i rfl
    refine (Carries.idle p fun x hx => (hasked x hx).isSilent).trans ?_
    cases i with
    | moved q => exact h
    | settled => exact .idle p (List.forall_mem_cons.mpr ⟨⟨rfl, rfl⟩, h⟩)
    | interrupted reason => exact .idle p (List.forall_mem_cons.mpr ⟨⟨rfl, rfl⟩, h⟩)

/-- **An advance tells its story.** -/
theorem advance_carries (e : Engine) : ∀ (fuel : Nat) (p : Engine.Progress),
    (e.advance fuel p).Ensures fun tr r => ∀ q why, r = .ok (q, why) → Carries p tr q
  | 0, _ => by rintro _ _ ⟨⟩
  | fuel + 1, p => by
    unfold Engine.advance
    refine Ensures.bind (advanceOnce_carries e p) ?_ (by rintro _ _ _ _ _ ⟨⟩)
    intro tr i h
    have hfirst := h i rfl
    cases i with
    | moved p' =>
      refine Ensures.mono (advance_carries e fuel p') ?_
      exact fun tr' r h' q why hr => hfirst.trans (h' q why hr)
    | settled =>
      rintro _ _ ⟨⟩
      rw [List.append_nil]
      exact hfirst
    | interrupted reason =>
      rintro _ _ ⟨⟩
      rw [List.append_nil]
      exact hfirst

/-! ## A cycle -/

/-- How a cycle finds its start: the ledger answers a cursor that is not empty, or it answers none
and the start is just below the tip. -/
inductive Begun (start : Cursor) : List Exchange → Prop
  | resumed (hstart : start.height ≠ 0) : Begun start [⟨.ledger .getCursor, .ok (some start)⟩]
  | bootstrapped {stored : Option Cursor} {tip : UInt64} {later : List Exchange}
    (hstored : ∀ c, stored = some c → c.height = 0) (hstart : start.height = lowered tip 1) :
    Begun start (⟨.ledger .getCursor, .ok stored⟩ :: ⟨.chain .tip, .ok tip⟩ :: later)

theorem start_begins :
    Engine.start.Ensures fun tr r => ∀ start, r = .ok (.ok start) → Begun start tr := by
  unfold Engine.start
  refine Ensures.store (fun stored => ?_) (by rintro _ _ ⟨⟩)
  cases hfilter : stored.filter fun c : Cursor => !c.isEmpty with
  | some c =>
    rintro _ ⟨⟩
    obtain ⟨rfl, hheight⟩ := Option.filter_eq_some_iff.mp hfilter
    exact .resumed (by simpa [Cursor.isEmpty] using hheight)
  | none =>
    have hstored : ∀ c, stored = some c → c.height = 0 := by
      rintro c rfl
      simpa [Cursor.isEmpty, Option.filter_some] using hfilter
    rintro (cause | tip)
    · rintro _ ⟨⟩
    · by_cases hzero : lowered tip 1 = 0
      · simp only [done_bind, hzero, if_true]
        rintro _ ⟨⟩
        exact .bootstrapped hstored hzero.symm
      · simp only [done_bind, hzero, if_false]
        rintro (cause | b)
        · rintro _ ⟨⟩
        · rintro _ ⟨⟩
          exact .bootstrapped hstored rfl

/-- The last report of a cycle. -/
inductive Closing (report : CycleReport) : StatusEvent → Prop
  | paused {reason : PauseReason} (h : report.interrupted = true) :
    Closing report (.paused report.finalHeight reason)
  | completed (h : report.interrupted = false) :
    Closing report (.completed report.finalHeight report.blocksScanned)

/-- The exchanges of a cycle that finds its start: it reports the start, an advance leads from there
to where the cycle ends, and after the last report nothing is told and no cursor is written. -/
structure Walked (report : CycleReport) (start : Cursor) (final : Engine.Progress)
    (opening way ending : List Exchange) (closing : StatusEvent) : Prop where
  begun : Begun start opening
  opens : ∀ x ∈ opening, x.IsSilent
  carries : Carries ⟨start, 0, 0⟩ way final
  closes : Closing report closing
  ends : ∀ x ∈ ending, x.IsSilent
  start_eq : report.startHeight = start.height
  final_eq : report.finalHeight = final.cursor.height
  blocks_eq : report.blocksScanned = final.blocks
  forks_eq : report.forks = final.forks

/-- **The exchanges of a cycle.**  Whatever is answered, a cycle with a report found no start and
told nothing, or it went from a start to an end. -/
theorem cycle_walks (e : Engine) (fuel : Nat) :
    (e.cycle fuel).Ensures fun tr r => ∀ report, r = .ok report →
      (∀ x ∈ tr, x.IsSilent) ∨
        ∃ start final opening way ending closing,
          tr = opening ++ ⟨.report (.started start.height), ()⟩ :: (way ++
            ⟨.report closing, ()⟩ :: ending) ∧
          Walked report start final opening way ending closing := by
  unfold Engine.cycle
  refine Ensures.bind (Ensures.and Engine.start_quiet.orderly.only start_begins) ?_
    (by rintro _ _ _ _ ⟨⟩)
  rintro opening (cause | start) ⟨hopening, hbegun⟩
  · rintro _ ⟨⟩
    exact .inl (by simpa using fun x hx => (hopening x hx).1.isSilent)
  · unfold Engine.cycleFrom
    rintro ⟨⟩
    show ((e.advance fuel ⟨start, 0, 0⟩).bind _).Ensures _
    refine Ensures.bind (advance_carries e fuel ⟨start, 0, 0⟩) ?_ (by rintro _ _ _ _ ⟨⟩)
    have hopens : ∀ x ∈ opening, x.IsSilent := fun x hx => (hopening x hx).1.isSilent
    rintro way ⟨final, _ | reason⟩ hway
    · rintro ⟨⟩
      show ((e.drain final.cursor).bind _).Ensures _
      refine Ensures.bind (Engine.drain_quiet e final.cursor).orderly.only ?_
        (by rintro _ _ _ _ ⟨⟩)
      rintro ending ⟨retried, purged⟩ hending _ ⟨⟩
      refine .inr ⟨start, final, opening, way, ending, .completed final.cursor.height final.blocks,
        by simp, ⟨hbegun start rfl, hopens, hway final none rfl, .completed rfl,
          fun x hx => (hending x hx).isSilent, rfl, rfl, rfl, rfl⟩⟩
    · rintro ⟨⟩ _ ⟨⟩
      refine .inr ⟨start, final, opening, way, [], .paused final.cursor.height reason, by simp,
        ⟨hbegun start rfl, hopens, hway final (some reason) rfl, .paused rfl, by simp, rfl, rfl,
          rfl, rfl⟩⟩

namespace Walked

variable {report : CycleReport} {start : Cursor} {final : Engine.Progress}
  {opening way ending : List Exchange} {closing : StatusEvent}

/-- What a cycle tells is its start, the story of its advance, and its end. -/
theorem notices_eq (h : Walked report start final opening way ending closing) :
    readOff notice? (opening ++ ⟨.report (.started start.height), ()⟩ :: (way ++
      ⟨.report closing, ()⟩ :: ending)) =
      .reported (.started start.height) :: (readOff notice? way ++ [.reported closing]) := by
  rw [notices_behind_silent h.opens, readOff_cons, readOff_append, readOff_cons,
    notices_silent h.ends]
  rfl

/-- The cursor that a cycle wrote last is the one that its advance has come to. -/
theorem writtenIn_eq (h : Walked report start final opening way ending closing) :
    writtenIn (opening ++ ⟨.report (.started start.height), ()⟩ :: (way ++
      ⟨.report closing, ()⟩ :: ending)) =
      if readOff notice? way = [] then none else some final.cursor := by
  rw [writtenIn_behind_silent h.opens, writtenIn_cons, writtenIn_append, writtenIn_cons,
    writtenIn_silent h.ends, h.carries.written]
  split <;> rfl

/-- Nothing is told on the way exactly if the report counts nothing. -/
theorem still_iff (h : Walked report start final opening way ending closing) :
    readOff notice? way = [] ↔ report.blocksScanned + report.forks = 0 := by
  rw [h.blocks_eq, h.forks_eq]
  refine ⟨fun hstill => ?_, fun hzero => ?_⟩
  · rw [h.carries.still hstill]
    rfl
  · by_contra hmoved
    have hlt := h.carries.moved hmoved
    omega

/-- Where a cycle leaves the cursor that was persisted before. -/
theorem cursor_eq (h : Walked report start final opening way ending closing)
    (stored : Option Cursor) :
    (writtenIn (opening ++ ⟨.report (.started start.height), ()⟩ :: (way ++
      ⟨.report closing, ()⟩ :: ending))).or stored =
      if report.blocksScanned + report.forks = 0 then stored else some final.cursor := by
  rw [h.writtenIn_eq, ← if_congr h.still_iff rfl rfl]
  split <;> rfl

end Walked

/-! ## The ledger -/

/-- The cursor that a ledger holds. -/
def Ledger.cursor : Ledger → Option Cursor
  | .memory l => l.cursor
  | .rows l => l.getCursor

theorem cursor_setCursor (l : Ledger) (c : Cursor) :
    (l.perform (.setCursor c)).2.cursor = some c := by
  cases l with
  | memory l => rfl
  | rows l =>
    show some (⟨c.height.toInt64.toUInt64, c.hash⟩ : Cursor) = some c
    rw [UInt64.toUInt64_toInt64]

theorem cursor_perform {op : LedgerOp} (hop : ∀ c, op ≠ .setCursor c) (l : Ledger) :
    (l.perform op).2.cursor = l.cursor := by
  cases op
  case setCursor c => exact absurd rfl (hop c)
  all_goals cases l <;> rfl

/-- A ledger holds the cursor that was written last, or the one from before. -/
theorem cursor_replay {f : FaultyLedger} {tr : List Exchange}
    (h : Answered FaultyLedger.perform f tr) :
    (replay FaultyLedger.perform f tr).ledger.cursor = (writtenIn tr).or f.ledger.cursor := by
  induction tr generalizing f with
  | nil => rfl
  | cons x rest ih =>
    rw [writtenIn_cons]
    obtain ⟨q, a⟩ := x
    cases q with
    | ledger op =>
      obtain ⟨hanswer, hrest⟩ := h
      refine (ih hrest).trans ?_
      rw [Option.or_assoc]
      congr 1
      rcases a with cause | answer
      · rw [FaultyLedger.perform_error hanswer.symm]
        cases op <;> rfl
      · rw [(FaultyLedger.perform_ok hanswer.symm).2]
        cases op
        case setCursor c => exact cursor_setCursor _ c
        all_goals exact cursor_perform (by simp) _
    | _ =>
      refine (ih h).trans ?_
      rw [Option.or_assoc]
      rfl

theorem Ledger.Shelved.performFaulty {f : FaultyLedger} (h : f.ledger.Shelved) (op : LedgerOp) :
    (f.perform op).2.ledger.Shelved := by
  cases hanswer : (f.perform op).1 with
  | error cause => rwa [FaultyLedger.perform_error hanswer]
  | ok answer =>
    rw [(FaultyLedger.perform_ok hanswer).2]
    exact h.perform op

theorem cursor_run {τ α : Type} (p : Script α) (outside : Handler τ) (f : FaultyLedger) (t : τ) :
    (p.run (amid FaultyLedger.perform outside) (f, t)).state.1.ledger.cursor =
      (writtenIn (p.run (amid FaultyLedger.perform outside) (f, t)).trace).or f.ledger.cursor := by
  rw [amid_replay]
  exact cursor_replay (answered_run p f t)

/-- A ledger whose blocks stand under their heights, with a source that serves blocks of the heights
asked for: no answer holds a block of another height. -/
theorem answers_atHeight {τ α : Type} {outside : Handler τ} (htruthful : Truthful outside)
    (p : Script α) {f : FaultyLedger} (hshelved : f.ledger.Shelved) (t : τ) :
    ∀ x ∈ (p.run (amid FaultyLedger.perform outside) (f, t)).trace, x.AtHeight := by
  induction p generalizing f t with
  | done a => simp [run]
  | halt h => simp [run]
  | ask q next ih =>
    intro x hx
    rcases List.mem_cons.mp hx with rfl | hx
    · rcases q with q | op | _ | _ | _ | _
      case chain =>
        cases q
        case block height =>
          show Exchange.AtHeight ⟨.chain (.block height), (outside (.chain (.block height)) t).1⟩
          cases hserved : (outside (.chain (.block height)) t).1 with
          | error cause => trivial
          | ok b => exact htruthful height b ⟨t, hserved⟩
        all_goals trivial
      case ledger =>
        cases op
        case getBlock height =>
          show Exchange.AtHeight ⟨.ledger (.getBlock height), (f.perform (.getBlock height)).1⟩
          rcases hread : (f.perform (.getBlock height)).1 with cause | _ | b
          · trivial
          · trivial
          · exact hshelved.height_eq (FaultyLedger.perform_ok hread).1
        all_goals trivial
      all_goals trivial
    · rcases q with q | op | _ | _ | _ | _
      case ledger => exact ih _ (hshelved.performFaulty op) t x hx
      all_goals exact ih _ hshelved _ x hx

/-! ## The four views -/

/-- **The four views of a cycle agree.**  Let a cycle find its start and end with a report, over a
ledger of either kind that may refuse operations and whose blocks stand under their heights, as
every operation leaves them, and in surroundings whose blocks have the heights asked for.  Its first
report names the start, its last one the height where it stands then, and what is told between is
the story of its way from one to the other.  The report gives both heights and the numbers of
accepted and abandoned blocks that were told, and the ledger holds the cursor that the story ends
with; if the story is empty, it holds the one from before. -/
theorem cycle_tells_one_story {τ : Type} {e : Engine} {fuel : Nat} {outside : Handler τ}
    (htruthful : Truthful outside) {f : FaultyLedger} (hshelved : f.ledger.Shelved) {t : τ}
    {report : CycleReport} {s : FaultyLedger × τ} {tr : List Exchange}
    (hrun : (e.cycle fuel).run (amid FaultyLedger.perform outside) (f, t) = ⟨.ok report, s, tr⟩)
    {height : UInt64} (hstarted : .reported (.started height) ∈ readOff notice? tr) :
    ∃ (start final : Cursor) (told : List Notice) (closing : StatusEvent),
      readOff notice? tr = .reported (.started start.height) :: (told ++ [.reported closing]) ∧
      Story ⟨start, 0, 0⟩ told ⟨final, report.blocksScanned, report.forks⟩ ∧
      Closing report closing ∧
      report.startHeight = start.height ∧ report.finalHeight = final.height ∧
      report.blocksScanned = told.countP Notice.isProgress ∧
      report.forks = told.countP Notice.isFork ∧
      s.1.ledger.cursor =
        if report.blocksScanned + report.forks = 0 then f.ledger.cursor else some final := by
  have hwalks := (cycle_walks e fuel).run (amid FaultyLedger.perform outside) (f, t)
  have hheights := answers_atHeight htruthful (e.cycle fuel) hshelved t
  have hcursor := cursor_run (e.cycle fuel) outside f t
  rw [hrun] at hwalks hheights hcursor
  rcases hwalks report rfl with hsilent | ⟨start, final, opening, way, ending, closing, rfl, h⟩
  · rw [notices_silent hsilent] at hstarted
    cases hstarted
  · have hstory : Story ⟨start, 0, 0⟩ (readOff notice? way) final :=
      h.carries.story fun x hx => hheights x (by simp [hx])
    obtain ⟨hblocks, hforks⟩ := hstory.counts
    refine ⟨start, final.cursor, readOff notice? way, closing, h.notices_eq, ?_, h.closes,
      h.start_eq,
      h.final_eq, ?_, ?_, ?_⟩
    · rwa [h.blocks_eq, h.forks_eq]
    · rw [h.blocks_eq, hblocks, Nat.zero_add]
    · rw [h.forks_eq, hforks, Nat.zero_add]
    · exact hcursor.trans (h.cursor_eq _)

/-- A cycle that abandons a block and accepts two, after which the cursor stands on the last one. -/
theorem visitedLedger_story :
    let r := (bareEngine.cycle 4).run (amid FaultyLedger.perform
      (servingOnly (Rehearsal.ChainTables.linearBlock "n") 4)) (⟨.memory visitedLedger, []⟩, ())
    ∃ (start final : Cursor) (told : List Notice) (closing : StatusEvent),
      readOff notice? r.trace = .reported (.started start.height) :: (told ++ [.reported closing]) ∧
      Story ⟨start, 0, 0⟩ told ⟨final, 2, 1⟩ ∧ final.height = 4 ∧
      r.state.1.ledger.cursor = some final := by
  intro r
  have hresult : r.result = .ok ⟨3, 4, 2, 1, 0, 0, false⟩ := by decide +kernel
  have hrun : r = ⟨.ok ⟨3, 4, 2, 1, 0, 0, false⟩, r.state, r.trace⟩ := by rw [← hresult]
  have hstarted : .reported (.started 3) ∈ readOff notice? r.trace := by decide +kernel
  have hshelved : (Ledger.memory visitedLedger).Shelved := by
    unfold Ledger.Shelved
    decide +kernel
  obtain ⟨start, final, told, closing, hnotices, hstory, -, -, hfinal, -, -, hcursor⟩ :=
    cycle_tells_one_story (servingOnly_truthful "n" 4) hshelved hrun hstarted
  exact ⟨start, final, told, closing, hnotices, hstory, hfinal.symm, hcursor⟩

end WalletScan
