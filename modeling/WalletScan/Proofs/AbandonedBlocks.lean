import WalletScan.Proofs.CycleStory

/-!
# Which block is announced as abandoned

A rewind tells the observers of the block that is cached at the height of its cursor.  It does not
compare the hashes, so the announcement is right as long as the block cached there is the one that
the cursor stands on.

* `Steered` — the ledgers that cycles and moves of the cursor by hand lead to from the empty one.
* `Misplaced` — the cursor was put by hand on a height at which another block stayed cached.
* `abandoned_block_known` — a cached block at the cursor is the right one unless the cursor is
  misplaced, and so is the announced block of every rewind but the first move away from such a
  cursor.
-/

set_option autoImplicit false

namespace WalletScan

open Script
open Exchange (notice?)

/-! ## Ledgers -/

/-- The block that is cached at the cursor of a ledger is another one. -/
def Strayed (l : MemoryLedger) : Prop :=
  ∃ c b, l.cursor = some c ∧ l.getBlock c.height = some b ∧ b.hash ≠ c.hash

theorem strayed_congr {l l' : MemoryLedger} (h : SamePosition l l') : Strayed l' ↔ Strayed l := by
  unfold Strayed
  rw [h.cursor]
  simp only [getBlock_congr h.blocks]

theorem strayed_iff {l : MemoryLedger} {c : Cursor} {b : Block} (hcursor : l.cursor = some c)
    (hcached : l.getBlock c.height = some b) : Strayed l ↔ b.hash ≠ c.hash := by
  refine ⟨?_, fun hne => ⟨c, b, hcursor, hcached, hne⟩⟩
  rintro ⟨c', b', hc', hb', hne⟩
  obtain rfl := Option.some.inj (hcursor.symm.trans hc')
  obtain rfl := Option.some.inj (hcached.symm.trans hb')
  exact hne

/-- Blocks are cached under their heights, none before there is a cursor, and the cursor is never at
height zero. -/
structure Filed (l : MemoryLedger) : Prop where
  own : ∀ h b, l.getBlock h = some b → b.height = h
  fresh : l.cursor = none → l.blocks = .empty
  positive : ∀ c, l.cursor = some c → c.height ≠ 0

/-- A ledger stands on a cursor, and if the block there is cached then it is the right one. -/
structure Landed (l : MemoryLedger) (c : Cursor) : Prop where
  filed : Filed l
  cursor : l.cursor = some c
  coherent : ¬ Strayed l

/-- What an iteration or a cycle makes of a ledger: the cursor and the cached blocks stay, or the
cursor has come to a block that is cached. -/
def Settles (l l' : MemoryLedger) : Prop := SamePosition l l' ∨ ∃ c, Landed l' c

section

variable {l l' l'' : MemoryLedger}

theorem Filed.of_samePosition (h : Filed l) (hsame : SamePosition l l') : Filed l' := by
  refine ⟨fun height b hb => ?_, fun hnone => ?_, fun c hc => ?_⟩
  · rw [getBlock_congr hsame.blocks] at hb
    exact h.own height b hb
  · rw [hsame.cursor] at hnone
    rw [hsame.blocks, h.fresh hnone]
  · rw [hsame.cursor] at hc
    exact h.positive c hc

theorem Landed.of_samePosition {c : Cursor} (h : Landed l c) (hsame : SamePosition l l') :
    Landed l' c :=
  ⟨h.filed.of_samePosition hsame, hsame.cursor.trans h.cursor,
    fun hstrayed => h.coherent ((strayed_congr hsame).mp hstrayed)⟩

theorem Settles.trans (h : Settles l l') (h' : Settles l' l'') : Settles l l'' := by
  rcases h' with hsame | hlanded
  · rcases h with hearlier | ⟨c, hc⟩
    · exact .inl (hearlier.trans hsame)
    · exact .inr ⟨c, hc.of_samePosition hsame⟩
  · exact .inr hlanded

theorem Filed.settles (h : Filed l) (hsettles : Settles l l') : Filed l' := by
  rcases hsettles with hsame | ⟨c, hc⟩
  · exact h.of_samePosition hsame
  · exact hc.filed

/-- A cursor on a block that is cached under its height. -/
theorem landed_on {b : Block} (hown : ∀ h a, l.getBlock h = some a → a.height = h)
    (hheight : b.height ≠ 0) (hcursor : l.cursor = some b.header.cursor)
    (hcached : l.getBlock b.height = some b) : Landed l b.header.cursor := by
  refine ⟨⟨hown, fun hnone => ?_, fun c hc => ?_⟩, hcursor, ?_⟩
  · cases hnone.symm.trans hcursor
  · rwa [← Option.some.inj (hcursor.symm.trans hc)]
  · rw [strayed_iff hcursor hcached, not_not]
    rfl

end

/-! ## Cycles -/

section

variable {τ : Type} {outside : Handler τ} {l l' : MemoryLedger} {p : Engine.Progress}

/-- The block that a rewind goes back to is cached. -/
theorem Filed.found (htruthful : Truthful outside) (h : Filed l) {c : Cursor} {b : Block}
    (hsearch : AncestorEnd MemoryLedger.carryOut outside c l (.ok (some b)) l') :
    Landed (l'.setCursor b.header.cursor) b.header.cursor := by
  cases hsearch with
  | cached hne hcached =>
    have hstored : l.getBlock c.below = some b := Except.ok.inj hcached
    have hheight := h.own _ b hstored
    refine landed_on h.own (hheight ▸ below_ne_zero c) rfl ?_
    rw [hheight]
    exact hstored
  | fetched hmissed hserved =>
    have hheight : b.height = c.below := htruthful _ b hserved
    refine landed_on (own_insert h.own rfl) (hheight ▸ below_ne_zero c) rfl ?_
    rw [getBlock_insert (l := l) (b := b) rfl, if_pos rfl]

/-- An iteration leaves the cursor on a block that is cached, or where it was. -/
theorem advanceOnce_lands (htruthful : Truthful outside) (e : Engine) (h : Filed l) :
    Leads MemoryLedger.carryOut outside (e.advanceOnce p) l fun r l' =>
      Settles l l' ∧ ∀ p', r = .ok (.moved p') → Landed l' p'.cursor ∧ p' ≠ p := by
  refine (advanceOnce_leads memory_steady e p l).mono ?_
  intro r l' hend
  cases hend with
  | stopped hi hstops => exact ⟨.inl ⟨rfl, rfl⟩, fun p' hp' => absurd (Except.ok.inj hp') (hi p')⟩
  | @served tip b r l' htip hlt hblock hover =>
    have haccepted : ∀ batch : List Exchange, (∀ x ∈ batch, x.InBatch b.height) →
        Landed (acceptedInto MemoryLedger.carryOut b batch l) b.header.cursor := by
      intro batch hbatch
      have hheight : b.height = p.cursor.height + 1 := htruthful _ b hblock
      have hfiled := h.of_samePosition (after_batch hbatch l)
      refine landed_on (own_insert hfiled.own rfl) (by grind) rfl ?_
      rw [getBlock_insert (l := l.after batch) (b := b) rfl, if_pos rfl]
    have hfurther : ∀ c blocks forks, p.blocks + p.forks < blocks + forks →
        (⟨c, blocks, forks⟩ : Engine.Progress) ≠ p := by
      rintro c blocks forks hlt rfl
      exact Nat.lt_irrefl _ hlt
    cases hover with
    | rewound hbreaks hrewind =>
      have hcleared : SamePosition l (l.deleteUnscanned p.cursor.height).2 := ⟨rfl, rfl⟩
      have h' := h.of_samePosition hcleared
      cases hrewind with
      | unreadable hread => cases hread
      | failed hsearch => cases hsearch with | unreadable hread => cases hread
      | stuck hsearch =>
        cases hsearch
        exact ⟨.inl hcleared, by simp [Except.map, rewoundTo]⟩
      | moved hsearch =>
        have hlanded := h'.found htruthful hsearch
        refine ⟨.inr ⟨_, hlanded⟩, ?_⟩
        rintro _ ⟨⟩
        exact ⟨hlanded, hfurther _ _ _ (by omega)⟩
      | died hsearch hdied => exact ⟨.inr ⟨_, h'.found htruthful hsearch⟩, by simp [Except.map]⟩
    | @accepted batch hextends hbatch =>
      refine ⟨.inr ⟨_, haccepted batch hbatch⟩, ?_⟩
      rintro _ ⟨⟩
      exact ⟨haccepted batch hbatch, hfurther _ _ _ (by omega)⟩
    | @died batch detail hextends hbatch hdied =>
      exact ⟨.inr ⟨_, haccepted batch hbatch⟩, by simp⟩

theorem advance_settles (htruthful : Truthful outside) (e : Engine) :
    ∀ (fuel : Nat) {p : Engine.Progress} {l : MemoryLedger}, Filed l →
      Leads MemoryLedger.carryOut outside (e.advance fuel p) l fun _ l' => Settles l l'
  | 0, _, _, _ => fun _ => .inl ⟨rfl, rfl⟩
  | fuel + 1, p, l, h => by
    unfold Engine.advance
    refine Leads.bind (advanceOnce_lands htruthful e h) ?_ fun _ _ hend => hend.1
    rintro (p' | _ | reason) l' ⟨hsettles, hmoved⟩
    · refine (advance_settles htruthful e fuel (h.settles hsettles)).mono fun _ _ hlater => ?_
      exact hsettles.trans hlater
    · exact Leads.done hsettles
    · exact Leads.done hsettles

/-- A script that only asks what follows an advance leaves the position. -/
theorem settles_of_drain {α : Type} {s : Script α} (hs : s.Orderly Exchange.IsDrain)
    (l : MemoryLedger) :
    Leads MemoryLedger.carryOut outside s l fun _ l' => SamePosition l l' := by
  refine (Leads.only hs l).mono ?_
  rintro r _ ⟨tr, hdrain, rfl⟩
  exact after_isDrain hdrain l

theorem Filed.cycle_settles (htruthful : Truthful outside) (e : Engine) (fuel : Nat) (h : Filed l) :
    Leads MemoryLedger.carryOut outside (e.cycle fuel) l fun _ l' => Settles l l' := by
  have hstart : Engine.start.Orderly Exchange.IsDrain :=
    (Engine.start_quiet.mono fun x hx => hx.1).orderly
  unfold Engine.cycle
  refine Leads.bind (settles_of_drain hstart l) ?_ fun _ _ hend => .inl hend
  rintro (cause | c) l' hsame
  · exact Leads.done (.inl hsame)
  · unfold Engine.cycleFrom
    refine Leads.report ?_
    refine Leads.bind (advance_settles htruthful e fuel (h.of_samePosition hsame)) ?_
      fun _ _ hend => Settles.trans (.inl hsame) hend
    rintro ⟨p, _ | reason⟩ l'' hadvanced
    · refine Leads.report ?_
      have hsettles := Settles.trans (.inl hsame) hadvanced
      refine Leads.bind (settles_of_drain (Engine.drain_quiet e p.cursor).orderly l'') ?_
        fun _ _ hend => hsettles.trans (.inl hend)
      exact fun _ _ hend => Leads.done (hsettles.trans (.inl hend))
    · exact Leads.report (Leads.done (Settles.trans (.inl hsame) hadvanced))

end

/-! ## Announcements -/

namespace Exchange

/-- An announcement of an abandoned block. -/
def TellsFork (x : Exchange) : Prop := ∃ header, x.notice? = some (.announced header true)

theorem IsSilent.not_tellsFork {x : Exchange} (h : x.IsSilent) : ¬ x.TellsFork := by
  rintro ⟨header, hnotice⟩
  cases h.notice.symm.trans hnotice

theorem IsQuestion.not_movesCursor {x : Exchange} (h : x.IsQuestion) : ¬ x.MovesCursor := by
  obtain ⟨q, a⟩ := x
  cases q with
  | taskState => exact id
  | _ => exact IsDrain.not_movesCursor h

end Exchange

/-- Of every announcement of an abandoned block, a predicate of the exchanges before it holds. -/
def ForksTold (P : List Exchange → BlockHeader → Prop) (tr : List Exchange) : Prop :=
  ∀ before header answer after,
    tr = before ++ ⟨.announce header true, answer⟩ :: after → P before header

section

variable {P : List Exchange → BlockHeader → Prop} {tr tr' : List Exchange}

theorem ForksTold.none (h : ∀ x ∈ tr, ¬ x.TellsFork) : ForksTold P tr := by
  rintro before header answer after rfl
  exact absurd ⟨header, rfl⟩ (h ⟨.announce header true, answer⟩ (by simp))

theorem ForksTold.append (h : ForksTold P tr)
    (h' : ForksTold (fun before => P (tr ++ before)) tr') : ForksTold P (tr ++ tr') := by
  intro before header answer after heq
  rcases List.append_eq_append_iff.mp heq with ⟨mid, rfl, hmid⟩ | ⟨mid, rfl, hmid⟩
  · exact h' mid header answer after hmid
  · cases mid with
    | nil => simpa using h' [] header answer after (by simpa using hmid.symm)
    | cons y mid =>
      obtain ⟨rfl, rfl⟩ : ⟨.announce header true, answer⟩ = y ∧ after = mid ++ tr' := by
        simpa using hmid
      exact h before header answer mid rfl

theorem ForksTold.single {header : BlockHeader} {answer : Except String Unit} (h : P [] header)
    (hafter : ∀ x ∈ tr, ¬ x.TellsFork) : ForksTold P (⟨.announce header true, answer⟩ :: tr) := by
  have hfirst : ForksTold P [⟨.announce header true, answer⟩] := by
    intro before header' answer' after heq
    obtain ⟨hx, -⟩ := singleton_eq_append_cons heq
    cases before with
    | nil =>
      cases hx
      exact h
    | cons y before => simp at heq
  exact hfirst.append (.none hafter)

end

/-- What comes before the announcement that the block cached at a cursor is abandoned. -/
inductive Abandons (c : Cursor) : List Exchange → BlockHeader → Prop
  | intro {opening reads : List Exchange} {a : Block} {rewound : Cursor}
    (hopening : ∀ x ∈ opening, x.IsQuestion) (hreads : ∀ x ∈ reads, x.IsBlockRead) :
    Abandons c
      ((opening ++ ⟨.ledger (.getBlock c.height), .ok (some a)⟩ :: reads) ++
        [⟨.ledger (.setCursor rewound), .ok ()⟩]) a.header

theorem Abandons.behind {c : Cursor} {before opening : List Exchange} {header : BlockHeader}
    (h : Abandons c before header) (hopening : ∀ x ∈ opening, x.IsQuestion) :
    Abandons c (opening ++ before) header := by
  obtain ⟨hasked, hreads⟩ := h
  rw [← List.append_assoc, ← List.append_assoc]
  exact .intro (List.forall_mem_append.mpr ⟨hopening, hasked⟩) hreads

theorem Rewinds.forksTold {c : Cursor} {tr : List Exchange} {r : Except Halt (Option Cursor)}
    (h : Rewinds c tr r) : ForksTold (Abandons c) tr := by
  have hopening : ∀ {deleted stored} {reads : List Exchange}, (∀ x ∈ reads, x.IsBlockRead) →
      ∀ (rewound : Cursor), ∀ x ∈ rewindOpening c deleted stored reads ++
        [⟨.ledger (.setCursor rewound), .ok ()⟩], ¬ Exchange.TellsFork x := by
    intro deleted stored reads hreads rewound
    rw [List.forall_mem_append, List.forall_mem_singleton]
    refine ⟨fun x hx => (rewindOpening_silent c deleted stored hreads x hx).not_tellsFork, ?_⟩
    rintro ⟨header, ⟨⟩⟩
  have habandons : ∀ {deleted} {a : Block} {reads : List Exchange}, (∀ x ∈ reads, x.IsBlockRead) →
      ∀ (rewound : Cursor), Abandons c (rewindOpening c deleted (some a) reads ++
        [⟨.ledger (.setCursor rewound), .ok ()⟩]) a.header := by
    intro deleted a reads hreads rewound
    have hasked : ∀ x ∈ ([⟨.ledger (.deleteUnscanned c.height), .ok deleted⟩] : List Exchange),
        x.IsQuestion := List.forall_mem_singleton.mpr trivial
    exact .intro hasked hreads
  cases h with
  | still hsilent hr => exact .none fun x hx => (hsilent x hx).not_tellsFork
  | @moved deleted stored reads b hreads hheight =>
    rw [List.append_cons]
    refine .append (.none (hopening hreads _)) ?_
    have hreport : ∀ x ∈ ([⟨.report (.forkDetected c.height b.height), ()⟩] : List Exchange),
        ¬ x.TellsFork := by
      rw [List.forall_mem_singleton]
      rintro ⟨header, ⟨⟩⟩
    cases stored with
    | none => exact .none hreport
    | some a =>
      refine .single ?_ hreport
      rw [List.append_nil]
      exact habandons hreads _
  | @died deleted a reads rewound detail hreads =>
    rw [List.append_cons]
    refine .append (.none (hopening hreads _)) (.single ?_ (by simp))
    rw [List.append_nil]
    exact habandons hreads _

theorem accept_forksTold (e : Engine) (b : Block) :
    (e.accept b).Orderly fun x => ¬ x.TellsFork := by
  unfold Engine.accept
  refine Obeys.bind ((runBatch_quiet e b.batch).mono fun x hx =>
    hx.isRescan.1.isSilent.not_tellsFork).orderly fun _ => ?_
  refine Obeys.bind (Quiet.store fun _ => ?_).orderly fun _ => ?_
  · rintro ⟨header, ⟨⟩⟩
  refine Obeys.bind (Quiet.store fun _ => ?_).orderly fun _ => ?_
  · rintro ⟨header, ⟨⟩⟩
  refine Orderly.announce fun _ => ?_
  rintro ⟨header, ⟨⟩⟩

theorem advanceOver_forksTold (e : Engine) (p : Engine.Progress) (b : Block) :
    (e.advanceOver p b).Ensures fun tr _ => ForksTold (Abandons p.cursor) tr := by
  unfold Engine.advanceOver
  split
  · refine Ensures.bind (rewind_ensures p.cursor) ?_ fun _ _ h => h.forksTold
    rintro tr (_ | rewound) h
    · simpa [Ensures] using h.forksTold
    · simpa [Ensures] using h.forksTold
  · have hreported : (Script.report (.progress b.header.cursor.height (p.blocks + 1))).Orderly
        fun x => ¬ x.TellsFork := by
      refine (Quiet.report ?_).orderly
      rintro ⟨header, ⟨⟩⟩
    refine Ensures.mono (Orderly.only (Obeys.bind (accept_forksTold e b) fun _ =>
      Obeys.bind hreported fun _ => Obeys.done _)) fun _ _ h => .none h

/-- Before an iteration announces that a block is abandoned, it has read that block from the cache,
at the height where the loop stands. -/
theorem advanceOnce_forksTold (e : Engine) (p : Engine.Progress) :
    (e.advanceOnce p).Ensures fun tr _ => ForksTold (Abandons p.cursor) tr := by
  have hquestions : ∀ tr : List Exchange, (∀ x ∈ tr, x.IsQuestion) →
      ForksTold (Abandons p.cursor) tr := by
    intro tr h
    exact .none fun x hx => (h x hx).isSilent.not_tellsFork
  refine advanceOnce_ensures e p (fun tr _ hasked _ => hquestions tr hasked) ?_
  intro opening b hopening _
  refine Ensures.mono (advanceOver_forksTold e p b) fun tr _ h => ?_
  have hasked : ∀ x ∈ opening ++ [⟨.chain (.block (p.cursor.height + 1)), .ok b⟩],
      Exchange.IsQuestion x :=
    List.forall_mem_append.mpr ⟨hopening, List.forall_mem_singleton.mpr trivial⟩
  rw [List.append_cons]
  refine ForksTold.append (hquestions _ hasked) ?_
  intro before header answer after heq
  exact (h before header answer after heq).behind hasked

/-! ## The cursor that is abandoned -/

/-- Where the loop of a cycle over a ledger stands after some exchanges.  A cursor on the wrong
block can only be the one that the cycle started from. -/
structure Placed (l : MemoryLedger) (past : List Exchange) (c : Cursor) : Prop where
  filed : Filed (l.after past)
  stands : StandsAt c (l.after past)
  strayed : Strayed (l.after past) ↔ Strayed l ∧ writtenIn past = none

/-- An abandoned block is announced right after the cursor was set back, under the height of the
cursor before; its hash is another one exactly if that cursor is the one that a strayed ledger had
at the start. -/
def Disowned (l : MemoryLedger) (before : List Exchange) (header : BlockHeader) : Prop :=
  ∃ earlier rewound c, before = earlier ++ [⟨.ledger (.setCursor rewound), .ok ()⟩] ∧
    (l.after earlier).cursor = some c ∧ header.height = c.height ∧
    (header.hash = c.hash ↔ ¬ (Strayed l ∧ writtenIn earlier = none))

section

variable {τ α : Type} {outside : Handler τ} {l : MemoryLedger}

theorem after_keepsCursor {tr : List Exchange} (h : ∀ x ∈ tr, ¬ x.MovesCursor) (l : MemoryLedger) :
    (l.after tr).cursor = l.cursor := by
  refine replay_frame (K := fun op => ∀ c, op ≠ .setCursor c)
    (R := fun l l' => l'.cursor = l.cursor) (fun _ => rfl) ?_ ?_ ?_ l
  · exact fun h h' => Eq.trans h' h
  · intro op l hop
    cases op
    case setCursor c => exact absurd rfl (hop c)
    all_goals rfl
  · rintro op answer hx c rfl
    exact h _ hx trivial

theorem after_questions {tr : List Exchange} (h : ∀ x ∈ tr, x.IsQuestion) (l : MemoryLedger) :
    SamePosition l (l.after tr) :=
  replay_frame (R := SamePosition) (fun _ => ⟨rfl, rfl⟩) SamePosition.trans
    (fun _ l hop => perform_keepsPosition hop l) (fun _ _ hx => h _ hx) l

/-- The block that an iteration announces as abandoned is the cached one at its cursor. -/
theorem Placed.disowned {past before rest : List Exchange} {c : Cursor} {header : BlockHeader}
    (h : Placed l past c) (habandons : Abandons c before header) {s : Script α} {t : τ}
    (htrace : (s.run (aside outside) (l.after past, t)).trace = before ++ rest) :
    Disowned l (past ++ before) header := by
  obtain ⟨hopening, hreads⟩ := habandons
  rename_i opening reads a rewound
  have hcached : (l.after past).getBlock c.height = some a := by
    have hsplit : (s.run (aside outside) (l.after past, t)).trace =
        opening ++ ⟨.ledger (.getBlock c.height), .ok (some a)⟩ ::
          (reads ++ ⟨.ledger (.setCursor rewound), .ok ()⟩ :: rest) := by
      rw [htrace]
      simp
    have hanswer := amid_answers s (l.after past) t hsplit
    rw [← getBlock_congr (after_questions hopening _).blocks]
    exact (Except.ok.inj hanswer).symm
  have hcursor : (l.after past).cursor = some c := by
    refine h.stands.resolve_left fun hnone => ?_
    unfold MemoryLedger.getBlock at hcached
    rw [h.filed.fresh hnone] at hcached
    cases hcached
  have hread : Exchange.IsSilent ⟨.ledger (.getBlock c.height), .ok (some a)⟩ := ⟨rfl, rfl⟩
  have hsilent : ∀ x ∈ opening ++ ⟨.ledger (.getBlock c.height), .ok (some a)⟩ :: reads,
      Exchange.IsSilent x := by
    rw [List.forall_mem_append, List.forall_mem_cons]
    exact ⟨fun x hx => (hopening x hx).isSilent, hread, fun x hx => (hreads x hx).isSilent⟩
  have hstill : ∀ x ∈ opening ++ ⟨.ledger (.getBlock c.height), .ok (some a)⟩ :: reads,
      ¬ Exchange.MovesCursor x := by
    rw [List.forall_mem_append, List.forall_mem_cons]
    exact ⟨fun x hx => (hopening x hx).not_movesCursor, id,
      fun x hx => (hreads x hx).not_movesCursor⟩
  refine ⟨past ++ (opening ++ ⟨.ledger (.getBlock c.height), .ok (some a)⟩ :: reads), rewound, c,
    (List.append_assoc _ _ _).symm, ?_, h.filed.own _ a hcached, ?_⟩
  · rw [MemoryLedger.after_append, after_keepsCursor hstill, hcursor]
  · rw [writtenIn_append, writtenIn_silent hsilent, Option.none_or, ← h.strayed,
      strayed_iff hcursor hcached, not_not]
    rfl

theorem forksTold_bind {β σ : Type} {handler : Handler σ} {P : List Exchange → BlockHeader → Prop}
    {s : Script α} {f : α → Script β} {st : σ} (hs : ForksTold P (s.run handler st).trace)
    (hf : ∀ a, (s.run handler st).result = .ok a →
      ForksTold (fun before => P ((s.run handler st).trace ++ before))
        ((f a).run handler (s.run handler st).state).trace) :
    ForksTold P ((s.bind f).run handler st).trace := by
  rw [run_bind]
  cases hresult : (s.run handler st).result with
  | error halt => simpa [hresult] using hs
  | ok a => simpa [hresult] using hs.append (hf a hresult)

theorem forksTold_quiet {σ : Type} {handler : Handler σ} {P : List Exchange → BlockHeader → Prop}
    {s : Script α} (hs : s.Orderly fun x => ¬ x.TellsFork) (st : σ) :
    ForksTold P (s.run handler st).trace := .none (hs.only.run handler st)

theorem aside_state (s : Script α) (past : List Exchange) (t : τ) :
    (s.run (aside outside) (l.after past, t)).state =
      (l.after (past ++ (s.run (aside outside) (l.after past, t)).trace),
        (s.run (aside outside) (l.after past, t)).state.2) := by
  rw [MemoryLedger.after_append]
  exact Prod.ext (amid_replay s (l.after past) t) rfl

theorem Placed.moved (htruthful : Truthful outside) {e : Engine} {p p' : Engine.Progress}
    {past : List Exchange} (h : Placed l past p.cursor) {t : τ}
    (hmoved : ((e.advanceOnce p).run (aside outside) (l.after past, t)).result = .ok (.moved p')) :
    Placed l (past ++ ((e.advanceOnce p).run (aside outside) (l.after past, t)).trace)
      p'.cursor := by
  have hlands := (advanceOnce_lands htruthful e h.filed : Leads _ outside (e.advanceOnce p) _ _) t
  have hcarries := (advanceOnce_carries e p).run (aside outside) (l.after past, t) _ hmoved
  rw [aside_state] at hlands
  obtain ⟨hlanded, hne⟩ := hlands.2 p' hmoved
  have hwritten : writtenIn ((e.advanceOnce p).run (aside outside) (l.after past, t)).trace =
      some p'.cursor := by
    rw [hcarries.written, if_neg fun hstill => hne (hcarries.still hstill)]
    rfl
  refine ⟨hlanded.filed, .inr hlanded.cursor, ?_⟩
  rw [writtenIn_append, hwritten, Option.some_or]
  simp [hlanded.coherent]

theorem advance_disowns (htruthful : Truthful outside) (e : Engine) :
    ∀ (fuel : Nat) {p : Engine.Progress} {past : List Exchange}, Placed l past p.cursor → ∀ t,
      ForksTold (fun before => Disowned l (past ++ before))
        ((e.advance fuel p).run (aside outside) (l.after past, t)).trace
  | 0, _, _, _ => fun _ => .none (by simp [Engine.advance, run])
  | fuel + 1, p, past, h => fun t => by
    unfold Engine.advance
    refine forksTold_bind ?_ ?_
    · intro before header answer after htrace
      have habandons := (advanceOnce_forksTold e p).run (aside outside) (l.after past, t)
      exact h.disowned (habandons before header answer after htrace) htrace
    · rintro (p' | _ | reason) hresult
      · have hlater := advance_disowns htruthful e fuel (h.moved htruthful hresult)
          ((e.advanceOnce p).run (aside outside) (l.after past, t)).state.2
        rw [← aside_state] at hlater
        simpa only [List.append_assoc] using hlater
      · exact .none (by simp [run])
      · exact .none (by simp [run])

/-- A cycle starts at the cursor of the ledger, if it has one. -/
theorem Filed.placed (h : Filed l) {t : τ} {c : Cursor}
    (hstart : (Engine.start.run (aside outside) (l, t)).result = .ok (.ok c)) :
    Placed l (Engine.start.run (aside outside) (l, t)).trace c := by
  have hdrain := Engine.start_quiet.orderly.only.run (aside outside) (l, t)
  have hsame : SamePosition l (l.after (Engine.start.run (aside outside) (l, t)).trace) :=
    after_isDrain (fun x hx => (hdrain x hx).1) l
  have hsilent := writtenIn_silent fun x hx => (hdrain x hx).1.isSilent
  refine ⟨h.of_samePosition hsame, StandsAt.of_samePosition ?_ hsame, ?_⟩
  · have hread : ∀ (stored : Option Cursor) (later : List Exchange),
        (Engine.start.run (aside outside) (l, t)).trace =
          ⟨.ledger .getCursor, .ok stored⟩ :: later → l.cursor = stored := by
      intro stored later htrace
      rw [← List.nil_append (_ :: later)] at htrace
      have hanswer := amid_answers Engine.start l t htrace
      exact (Except.ok.inj hanswer).symm
    have hbegun := start_begins.run (aside outside) (l, t) c hstart
    generalize (Engine.start.run (aside outside) (l, t)).trace = tr at hread hbegun
    cases hbegun with
    | resumed hne => exact .inr (hread _ _ rfl)
    | @bootstrapped stored tip later hstored _ =>
      have hcursor := hread _ _ rfl
      cases stored with
      | none => exact .inl hcursor
      | some c' => exact absurd (hstored c' rfl) (h.positive c' hcursor)
  · rw [hsilent, strayed_congr hsame]
    simp

theorem Placed.reported {past : List Exchange} {c : Cursor} (h : Placed l past c)
    (event : StatusEvent) : Placed l (past ++ [⟨.report event, ()⟩]) c := by
  have hsame : l.after (past ++ [⟨.report event, ()⟩]) = l.after past :=
    MemoryLedger.after_append _ _ _
  obtain ⟨hfiled, hstands, hstrayed⟩ := h
  rw [← hsame] at hfiled hstands hstrayed
  refine ⟨hfiled, hstands, hstrayed.trans ?_⟩
  rw [writtenIn_append]
  rfl

theorem cycleFrom_disowns (htruthful : Truthful outside) (e : Engine) (fuel : Nat)
    {past : List Exchange} {c : Cursor} (h : Placed l past c) (t : τ) :
    ForksTold (fun before => Disowned l (past ++ before))
      ((e.cycleFrom fuel c).run (aside outside) (l.after past, t)).trace := by
  have hreported : ∀ event, (Script.report event).Orderly fun x => ¬ x.TellsFork := by
    refine fun event => (Quiet.report ?_).orderly
    rintro ⟨header, ⟨⟩⟩
  unfold Engine.cycleFrom
  refine forksTold_bind (forksTold_quiet (hreported _) _) fun _ _ => ?_
  rw [aside_state]
  refine forksTold_bind ?_ ?_
  · have hadvance := advance_disowns htruthful e fuel (p := ⟨c, 0, 0⟩)
      (h.reported (.started c.height))
    simp only [List.append_assoc] at hadvance
    exact hadvance _
  -- after the advance no block is announced
  · rintro ⟨p, _ | reason⟩ _
    · have hdrain : (e.drain p.cursor).Quiet fun x => ¬ x.TellsFork :=
        (Engine.drain_quiet e p.cursor).mono fun x hx => hx.isSilent.not_tellsFork
      exact forksTold_quiet (Obeys.bind (hreported _) fun _ =>
        Obeys.bind hdrain.orderly fun _ => Obeys.done _) _
    · exact forksTold_quiet (Obeys.bind (hreported _) fun _ => Obeys.done _) _

theorem cycle_disowns (htruthful : Truthful outside) (e : Engine) (fuel : Nat) (h : Filed l)
    (t : τ) : ForksTold (Disowned l) ((e.cycle fuel).run (aside outside) (l, t)).trace := by
  unfold Engine.cycle
  refine forksTold_bind ?_ ?_
  · refine forksTold_quiet ((Engine.start_quiet.mono fun x hx => ?_).orderly) _
    exact hx.1.isSilent.not_tellsFork
  · rintro (cause | c) hstart
    · exact .none (by simp [run])
    · have hstate : (Engine.start.run (aside outside) (l, t)).state =
          (l.after (Engine.start.run (aside outside) (l, t)).trace, _) :=
        aside_state Engine.start [] t
      rw [hstate]
      exact cycleFrom_disowns htruthful e fuel (h.placed hstart) _

end

/-! ## Histories -/

/-- The ledger after the cursor was moved by hand: the blocks above it are dropped. -/
def MemoryLedger.steeredTo (c : Cursor) (l : MemoryLedger) : MemoryLedger :=
  ((l.setCursor c).deleteBlocksAbove c.height).2

theorem getBlock_steeredTo (c : Cursor) (l : MemoryLedger) (height : UInt64) :
    (l.steeredTo c).getBlock height = if height ≤ c.height then l.getBlock height else none := by
  unfold MemoryLedger.getBlock
  refine (Index.find?_keep_key (fun h => decide (h ≤ c.height)) height l.blocks).trans ?_
  simp only [decide_eq_true_eq]

theorem Filed.steeredTo {l : MemoryLedger} (h : Filed l) {c : Cursor} (hheight : c.height ≠ 0) :
    Filed (l.steeredTo c) := by
  refine ⟨fun height b hb => ?_, fun hnone => (nomatch hnone), fun c' hc' => ?_⟩
  · rw [getBlock_steeredTo] at hb
    split at hb
    · exact h.own height b hb
    · cases hb
  · rwa [← Option.some.inj hc']

theorem setRescanHeight_leads {τ : Type} {outside : Handler τ} (height : UInt64)
    (l : MemoryLedger) :
    Leads MemoryLedger.carryOut outside (Engine.setRescanHeight height) l fun r l' =>
      match r with
      | .ok c => c.height ≠ 0 ∧ l' = l.steeredTo c
      | .error _ => l' = l := by
  unfold Engine.setRescanHeight
  split
  · exact fun _ => rfl
  · rename_i hlow
    have hheight : height - 1 ≠ 0 := by
      unfold minRewindHeight at hlow
      grind
    unfold Engine.chainHash
    simp only [bind_eq, bind_assoc]
    refine Leads.chain ?_
    rintro (cause | b) -
    · exact fun _ => rfl
    · exact fun _ => ⟨hheight, rfl⟩

/-- The ledgers in memory that histories of cycles and of moves of the cursor by hand lead to.
Every step may have surroundings of its own, and may end in any way. -/
inductive Steered : MemoryLedger → Prop
  | empty : Steered .empty
  | cycle {τ : Type} {outside : Handler τ} {l : MemoryLedger} (h : Steered l) (e : Engine)
    (fuel : Nat) (htruthful : Truthful outside) (t : τ) :
    Steered ((e.cycle fuel).run (aside outside) (l, t)).state.1
  | moved {τ : Type} {outside : Handler τ} {l : MemoryLedger} (h : Steered l) (height : UInt64)
    (t : τ) : Steered ((Engine.setRescanHeight height).run (aside outside) (l, t)).state.1

/-- The cursor was put by hand on a height at which a block of another hash is cached, and it has
not moved since. -/
inductive Misplaced : MemoryLedger → Prop
  | moved {τ : Type} {outside : Handler τ} {l : MemoryLedger} (h : Steered l) {height : UInt64}
    {t : τ} {c : Cursor} {b : Block}
    (hmoved : ((Engine.setRescanHeight height).run (aside outside) (l, t)).result = .ok c)
    (hcached : l.getBlock c.height = some b) (hother : b.hash ≠ c.hash) :
    Misplaced ((Engine.setRescanHeight height).run (aside outside) (l, t)).state.1
  | cycle {τ : Type} {outside : Handler τ} {l : MemoryLedger} (h : Misplaced l) {e : Engine}
    {fuel : Nat} {t : τ}
    (hstill : SamePosition l ((e.cycle fuel).run (aside outside) (l, t)).state.1) :
    Misplaced ((e.cycle fuel).run (aside outside) (l, t)).state.1
  | refused {τ : Type} {outside : Handler τ} {l : MemoryLedger} (h : Misplaced l) {height : UInt64}
    {t : τ} {halt : Halt}
    (hrefused : ((Engine.setRescanHeight height).run (aside outside) (l, t)).result = .error halt) :
    Misplaced ((Engine.setRescanHeight height).run (aside outside) (l, t)).state.1

section

variable {l : MemoryLedger}

theorem Steered.filed (h : Steered l) : Filed l := by
  induction h with
  | empty => exact ⟨fun _ _ hb => (nomatch hb), fun _ => rfl, fun _ hc => (nomatch hc)⟩
  | @cycle τ outside l _ e fuel htruthful t ih =>
    exact ih.settles (ih.cycle_settles htruthful e fuel t)
  | @moved τ outside l _ height t ih =>
    have hend := (setRescanHeight_leads height l : Leads _ outside _ _ _) t
    cases hresult : ((Engine.setRescanHeight height).run (aside outside) (l, t)).result with
    | ok c =>
      simp only [hresult] at hend
      rw [hend.2]
      exact ih.steeredTo hend.1
    | error halt =>
      simp only [hresult] at hend
      rwa [hend]

theorem strayed_steeredTo {c : Cursor} :
    Strayed (l.steeredTo c) ↔ ∃ b, l.getBlock c.height = some b ∧ b.hash ≠ c.hash := by
  have hblock : (l.steeredTo c).getBlock c.height = l.getBlock c.height := by
    rw [getBlock_steeredTo, if_pos (UInt64.le_refl _)]
  constructor
  · rintro ⟨c', b, hc', hb, hne⟩
    obtain rfl : c = c' := Option.some.inj hc'
    exact ⟨b, hblock ▸ hb, hne⟩
  · rintro ⟨b, hb, hne⟩
    exact ⟨c, b, rfl, hblock.trans hb, hne⟩

theorem Misplaced.strayed (h : Misplaced l) : Strayed l := by
  induction h with
  | @moved τ outside l h height t c b hmoved hcached hother =>
    have hend := (setRescanHeight_leads height l : Leads _ outside _ _ _) t
    simp only [hmoved] at hend
    rw [hend.2]
    exact strayed_steeredTo.mpr ⟨b, hcached, hother⟩
  | cycle _ hstill ih => exact (strayed_congr hstill).mpr ih
  | @refused τ outside l _ height t halt hrefused ih =>
    have hend := (setRescanHeight_leads height l : Leads _ outside _ _ _) t
    simp only [hrefused] at hend
    rwa [hend]

/-- Only a move by hand puts the cursor on another block than the cached one. -/
theorem Steered.misplaced (h : Steered l) (hstrayed : Strayed l) : Misplaced l := by
  induction h with
  | empty =>
    obtain ⟨c, b, hc, -⟩ := hstrayed
    cases hc
  | @cycle τ outside l hsteered e fuel htruthful t ih =>
    rcases (hsteered.filed.cycle_settles htruthful e fuel : Leads _ outside _ _ _) t with
      hsame | ⟨c, hlanded⟩
    · exact .cycle (ih ((strayed_congr hsame).mp hstrayed)) hsame
    · exact absurd hstrayed hlanded.coherent
  | @moved τ outside l hsteered height t ih =>
    have hend := (setRescanHeight_leads height l : Leads _ outside _ _ _) t
    cases hresult : ((Engine.setRescanHeight height).run (aside outside) (l, t)).result with
    | ok c =>
      simp only [hresult] at hend
      have hstrayed' := hstrayed
      rw [hend.2, strayed_steeredTo] at hstrayed'
      obtain ⟨b, hcached, hother⟩ := hstrayed'
      exact .moved hsteered hresult hcached hother
    | error halt =>
      simp only [hresult] at hend
      rw [hend] at hstrayed
      exact .refused (ih hstrayed) hresult

/-- **Which block the observers hear is abandoned.**  After any history of cycles and of moves of
the cursor by hand from the empty ledger, the block cached at the cursor is another one than the
cursor's exactly if the cursor is misplaced.  Whenever a further cycle announces that a block is
abandoned, it has just set the cursor back; the block announced has the height of the cursor before,
and its hash too, except if the cursor is misplaced and this is its first move in the cycle. -/
theorem abandoned_block_known (h : Steered l) {τ : Type} {outside : Handler τ}
    (htruthful : Truthful outside) (e : Engine) (fuel : Nat) (t : τ) :
    (Strayed l ↔ Misplaced l) ∧
      ∀ before header answer after,
        ((e.cycle fuel).run (aside outside) (l, t)).trace =
          before ++ ⟨.announce header true, answer⟩ :: after →
        ∃ earlier rewound c, before = earlier ++ [⟨.ledger (.setCursor rewound), .ok ()⟩] ∧
          (l.after earlier).cursor = some c ∧ header.height = c.height ∧
          (header.hash = c.hash ↔ ¬ (Misplaced l ∧ writtenIn earlier = none)) := by
  have hiff : Strayed l ↔ Misplaced l := ⟨h.misplaced, Misplaced.strayed⟩
  refine ⟨hiff, fun before header answer after htrace => ?_⟩
  rw [← hiff]
  exact cycle_disowns htruthful e fuel h.filed t before header answer after htrace

end

/-! ## A cursor on another chain -/

/-- A ledger that was led along one chain, and whose cursor was then put by hand on another one. -/
def crossedLedger : MemoryLedger :=
  ((Engine.setRescanHeight 4).run (aside (servingOnly (Rehearsal.ChainTables.linearBlock "n") 3))
    (visitedLedger, ())).state.1

theorem crossedLedger_steered : Steered crossedLedger :=
  (Steered.empty.cycle bareEngine 3 (servingOnly_truthful "o" 3) ()).moved 4 ()

/-- When the first chain is served again, the observers hear that a block of it is abandoned, and
not the one under the cursor. -/
theorem crossedLedger_disowns :
    ∃ (header : BlockHeader) (c : Cursor) (earlier : List Exchange),
      .announced header true ∈ readOff notice? ((bareEngine.cycle 6).run
        (aside (servingOnly (Rehearsal.ChainTables.linearBlock "o") 4)) (crossedLedger, ())).trace ∧
      (crossedLedger.after earlier).cursor = some c ∧ header.height = c.height ∧
      header.hash ≠ c.hash ∧ Misplaced crossedLedger := by
  have htruthful := servingOnly_truthful "o" 4
  obtain ⟨hiff, hannounced⟩ := abandoned_block_known crossedLedger_steered htruthful bareEngine 6 ()
  have hmisplaced : Misplaced crossedLedger := by
    rw [← hiff]
    exact ⟨⟨3, "n3"⟩, Rehearsal.ChainTables.linearBlock "o" 3, by decide +kernel, by decide +kernel,
      by decide +kernel⟩
  let tr := ((bareEngine.cycle 6).run
    (aside (servingOnly (Rehearsal.ChainTables.linearBlock "o") 4)) (crossedLedger, ())).trace
  have htrace : tr = tr.take 11 ++
      ⟨.announce (Rehearsal.ChainTables.linearBlock "o" 3).header true, .ok ()⟩ :: tr.drop 12 := by
    with_unfolding_all rfl
  obtain ⟨earlier, rewound, c, hbefore, hcursor, hheight, hhash⟩ := hannounced _ _ _ _ htrace
  have hfirst : writtenIn earlier = none := by
    have hearlier : earlier = tr.take 10 := by
      have hlast := congrArg List.dropLast hbefore
      rw [List.dropLast_concat] at hlast
      rw [← hlast]
      with_unfolding_all rfl
    rw [hearlier]
    decide +kernel
  refine ⟨_, c, earlier, by decide +kernel, hcursor, hheight, fun heq => ?_, hmisplaced⟩
  exact hhash.mp heq ⟨hmisplaced, hfirst⟩

end WalletScan
