import WalletScan.Proofs.ForkConvergence
import WalletScan.Proofs.LedgerRecords
import WalletScan.Proofs.Outcomes
import WalletScan.Proofs.DistinctEntries

/-!
# When an advance ends

The cursor of an advance moves up when a block is accepted and down when one is abandoned.  Over a
chain source whose answers do not change, an advance ends if the blocks that it serves are linked,
and goes round for ever below a link that is broken.

* `ToGo` — the rank that every iteration lowers if no link is broken: once a served block is under
  the cursor it only climbs, and before that it only descends.
* `advance_circles` — the heights below a broken link and the cursor on its lower block are a trap:
  every bound on the iterations is used up.
* `advance_ends_or_circles` — the two together.

Specification: section 8, bounded termination.
-/

set_option autoImplicit false

namespace WalletScan

open Script

/-! ## Sources that do not change -/

/-- The task is running, and the chain source always answers the same: one tip, and one answer for
each height, a block of this height if it is a block. -/
structure Unchanging {τ : Type} (outside : Handler τ) (tip : Except ChainError UInt64)
    (B : UInt64 → Except ChainError Block) : Prop where
  running : ∀ t, (outside .taskState t).1 = .running
  best : ∀ t, (outside (.chain .tip) t).1 = tip
  block : ∀ h t, (outside (.chain (.block h)) t).1 = B h
  height : ∀ h b, B h = .ok b → b.height = h

/-- As far as blocks are served below a tip, each names the hash of the one below it. -/
def Unbroken (B : UInt64 → Except ChainError Block) (tip : UInt64) : Prop :=
  ∀ h b b', 1 ≤ h → h < tip → B h = .ok b → B (h + 1) = .ok b' → b'.header.previousHash = b.hash

/-- The block above a block does not name its hash, and all blocks up to these two are served. -/
structure BrokenAbove (B : UInt64 → Except ChainError Block) (m : UInt64) (b : Block) : Prop where
  pos : 1 ≤ m
  lower : B m = .ok b
  upper : ∃ b', B (m + 1) = .ok b' ∧ b'.header.previousHash ≠ b.hash
  served : ∀ h, 1 ≤ h → h ≤ m → ∃ a, B h = .ok a

/-- A served block is under the cursor. -/
def OnChain (B : UInt64 → Except ChainError Block) (c : Cursor) : Prop :=
  1 ≤ c.height ∧ ∃ b, B c.height = .ok b ∧ b.hash = c.hash

section

variable {τ : Type} {outside : Handler τ} {tip : Except ChainError UInt64}
  {B : UInt64 → Except ChainError Block}

theorem Unchanging.tip_eq (h : Unchanging outside tip B) {answer : Except ChainError UInt64}
    (hanswer : Answers outside (.chain .tip) answer) : tip = answer := by
  obtain ⟨t, ht⟩ := hanswer
  exact (h.best t).symm.trans ht

theorem Unchanging.block_eq (h : Unchanging outside tip B) {height : UInt64}
    {answer : Except ChainError Block} (hanswer : Answers outside (.chain (.block height)) answer) :
    B height = answer := by
  obtain ⟨t, ht⟩ := hanswer
  exact (h.block height t).symm.trans ht

/-- The cursor on a block that is served. -/
theorem Unchanging.cursor_eq (h : Unchanging outside tip B) {height : UInt64} {b : Block}
    (hb : B height = .ok b) : b.header.cursor = ⟨height, b.hash⟩ := by
  have hheight : b.header.height = height := h.height height b hb
  unfold BlockHeader.cursor Block.hash
  rw [hheight]

theorem Unchanging.onChain (h : Unchanging outside tip B) {height : UInt64} {b : Block}
    (hpos : 1 ≤ height) (hb : B height = .ok b) : OnChain B b.header.cursor := by
  rw [h.cursor_eq hb]
  exact ⟨hpos, b, hb, rfl⟩

end

/-! ## Cached blocks -/

/-- A ledger in memory keeps its blocks under their heights; rows always do. -/
def Ledger.Shelved : Ledger → Prop
  | .memory l => ∀ entry ∈ l.blocks.entries, entry.2.height = entry.1
  | .rows _ => True

theorem Ledger.Shelved.height_eq {l : Ledger} (h : l.Shelved) {height : UInt64} {b : Block}
    (hb : (l.perform (.getBlock height)).1 = .ok (some b)) : b.height = height := by
  cases l with
  | memory l => exact h _ (Index.mem_entries_iff.mpr (Except.ok.inj hb))
  | rows l =>
    have hstored : l.getBlock height = .ok (some b) := hb
    unfold RowLedger.getBlock at hstored
    split at hstored
    · cases hstored
    · rename_i row hrow
      have hheight : row.height = height.toInt64 := by simpa using List.find?_some hrow
      unfold BlockRow.block at hstored
      split at hstored
      · obtain rfl := Option.some.inj (Except.ok.inj hstored)
        show row.height.toUInt64 = height
        rw [hheight, UInt64.toUInt64_toInt64]
      · cases hstored

theorem Ledger.Shelved.perform {l : Ledger} (h : l.Shelved) (op : LedgerOp) :
    (l.perform op).2.Shelved := by
  cases l with
  | memory l =>
    cases op
    case putBlock b =>
      intro entry hentry
      rcases List.mem_cons.mp hentry with rfl | hold
      · rfl
      · exact h entry (List.mem_filter.mp hold).1
    case deleteBlocksAbove height =>
      exact fun entry hentry => h entry (List.mem_filter.mp hentry).1
    all_goals exact h
  | rows l => trivial

theorem Ledger.Shelved.replay {l : Ledger} (h : l.Shelved) (tr : List Exchange) :
    (replay Ledger.perform l tr).Shelved :=
  replay_frame (K := fun _ => True) (R := fun l l' => l.Shelved → l'.Shelved)
    (fun _ h => h) (fun h h' hl => h' (h hl)) (fun op _ _ hl => hl.perform op)
    (fun _ _ _ => trivial) l h

/-! ## Linked blocks -/

section

variable {τ : Type} {outside : Handler τ} {tip : Except ChainError UInt64}
  {B : UInt64 → Except ChainError Block} {l l' : Ledger} {p : Engine.Progress}

theorem below_range (c : Cursor) (hpos : 0 < c.height) :
    1 ≤ c.below ∧ (c.height = 1 ∧ c.below = 1 ∨ 1 < c.height ∧ c.below + 1 = c.height) := by
  rcases rewind_lowest (m := c.height) (by grind) with ⟨hone, hbelow⟩ | ⟨hlt, hbelow⟩
  · have htarget : c.below = 1 := hbelow
    exact ⟨by grind, .inl ⟨hone, htarget⟩⟩
  · have htarget : c.below = c.height - 1 := hbelow
    exact ⟨by grind, .inr ⟨hlt, by grind⟩⟩

/-- A rewind goes down to a cached block, or to a block that is served. -/
theorem Unchanging.found (h : Unchanging outside tip B) (hl : l.Shelved) {c : Cursor} {b : Block}
    (hpos : 0 < c.height)
    (hsearch : AncestorEnd Ledger.perform outside c l (.ok (some b)) l') :
    b.height = c.below ∧ l'.Shelved ∧ (c.below < c.height ∨ B c.below = .ok b) := by
  cases hsearch with
  | cached hne hcached =>
    refine ⟨hl.height_eq hcached, hl, .inl ?_⟩
    have hrange := below_range c hpos
    grind
  | fetched hmissed hserved =>
    exact ⟨h.height _ b (h.block_eq hserved), hl.perform _, .inr (h.block_eq hserved)⟩

/-- From a served block a cursor only climbs. -/
theorem advanceOnce_climbs (h : Unchanging outside tip B) {top : UInt64} (htop : tip = .ok top)
    (hlinked : Unbroken B top) (e : Engine) (hp : OnChain B p.cursor) (l : Ledger) :
    Leads Ledger.perform outside (e.advanceOnce p) l fun r _ => r ≠ .error .exhausted ∧
      ∀ p', r = .ok (.moved p') → OnChain B p'.cursor ∧ p.cursor.height < top ∧
        p'.cursor.height = p.cursor.height + 1 := by
  refine (advanceOnce_leads ledger_steady e p l).mono ?_
  intro r l' hend
  obtain ⟨hpos, a, ha, hhash⟩ := hp
  cases hend with
  | stopped hi hstops => exact ⟨by simp, fun p' hp' => absurd (Except.ok.inj hp') (hi p')⟩
  | @served top' b r l' htip hlt hblock hover =>
    obtain rfl : top = top' := Except.ok.inj (htop.symm.trans (h.tip_eq htip))
    have hb : B (p.cursor.height + 1) = .ok b := h.block_eq hblock
    have hlink : b.header.previousHash = p.cursor.hash :=
      (hlinked _ a b hpos hlt ha hb).trans hhash
    cases hover with
    | rewound hbreaks hrewind => exact absurd hlink hbreaks.2
    | accepted hextends hbatch =>
      refine ⟨by simp, ?_⟩
      rintro _ ⟨⟩
      refine ⟨h.onChain (by grind) hb, hlt, ?_⟩
      exact h.height _ b hb
    | died hextends hbatch hdied => exact ⟨by simp, by simp⟩

/-- Before a served block is under the cursor, the cursor only descends. -/
theorem advanceOnce_descends (h : Unchanging outside tip B) {top : UInt64} (htop : tip = .ok top)
    (e : Engine) (hl : l.Shelved) :
    Leads Ledger.perform outside (e.advanceOnce p) l fun r l' => r ≠ .error .exhausted ∧
      ∀ p', r = .ok (.moved p') → l'.Shelved ∧ p.cursor.height < top ∧
        (OnChain B p'.cursor ∨ p'.cursor.height < p.cursor.height) := by
  refine (advanceOnce_leads ledger_steady e p l).mono ?_
  intro r l' hend
  cases hend with
  | stopped hi hstops => exact ⟨by simp, fun p' hp' => absurd (Except.ok.inj hp') (hi p')⟩
  | @served top' b r l' htip hlt hblock hover =>
    obtain rfl : top = top' := Except.ok.inj (htop.symm.trans (h.tip_eq htip))
    cases hover with
    | rewound hbreaks hrewind =>
      cases hrewind with
      | unreadable hread => exact ⟨by simp [Except.map], by simp [Except.map]⟩
      | failed hsearch =>
        cases hsearch
        exact ⟨by simp [Except.map], by simp [Except.map]⟩
      | stuck hsearch => exact ⟨by simp [Except.map], by simp [Except.map, rewoundTo]⟩
      | @moved a l' hsearch =>
        refine ⟨by simp [Except.map], ?_⟩
        rintro _ ⟨⟩
        obtain ⟨hheight, hl', hlower⟩ := h.found (hl.perform _) hbreaks.1 hsearch
        refine ⟨hl'.perform _, hlt, ?_⟩
        rcases hlower with hlower | hserved
        · exact .inr (show a.height < _ from hheight ▸ hlower)
        · exact .inl (h.onChain (below_range _ hbreaks.1).1 hserved)
      | died hsearch hdied => exact ⟨by simp [Except.map], by simp [Except.map]⟩
    | @accepted batch hextends hbatch =>
      refine ⟨by simp, ?_⟩
      rintro _ ⟨⟩
      refine ⟨((hl.replay batch).perform _).perform _, hlt, .inl ?_⟩
      exact h.onChain (by grind) (h.block_eq hblock)
    | died hextends hbatch hdied => exact ⟨by simp, by simp⟩

/-- How many iterations are left at most: as many as there are heights up to the tip, once a served
block is under the cursor, and those and the heights below the cursor before that. -/
inductive ToGo (B : UInt64 → Except ChainError Block) (top : UInt64) (p : Engine.Progress)
    (l : Ledger) : Nat → Prop
  | climbing (hp : OnChain B p.cursor) : ToGo B top p l (top.toNat - p.cursor.height.toNat)
  | descending (hl : l.Shelved) : ToGo B top p l (p.cursor.height.toNat + top.toNat)

theorem advanceOnce_lowers (h : Unchanging outside tip B) {top : UInt64} (htop : tip = .ok top)
    (hlinked : Unbroken B top) (e : Engine) {n : Nat} (hn : ToGo B top p l n) :
    Leads Ledger.perform outside (e.advanceOnce p) l fun r l' => r ≠ .error .exhausted ∧
      ∀ p', r = .ok (.moved p') → ∃ n' < n, ToGo B top p' l' n' := by
  cases hn with
  | climbing hp =>
    refine (advanceOnce_climbs h htop hlinked e hp l).mono ?_
    rintro r l' ⟨hbound, hmoved⟩
    refine ⟨hbound, fun p' hp' => ?_⟩
    obtain ⟨hp', hlt, hheight⟩ := hmoved p' hp'
    have hnat : p.cursor.height.toNat < top.toNat := UInt64.lt_iff_toNat_lt.mp hlt
    have hnat' : p'.cursor.height.toNat = p.cursor.height.toNat + 1 := by
      rw [hheight, toNat_succ hlt]
    exact ⟨_, by omega, .climbing hp'⟩
  | descending hl =>
    refine (advanceOnce_descends h htop e hl).mono ?_
    rintro r l' ⟨hbound, hmoved⟩
    refine ⟨hbound, fun p' hp' => ?_⟩
    obtain ⟨hl', hlt, hserved | hlower⟩ := hmoved p' hp'
    · have hnat : p.cursor.height.toNat < top.toNat := UInt64.lt_iff_toNat_lt.mp hlt
      have hpos : 1 ≤ p'.cursor.height.toNat := UInt64.le_iff_toNat_le.mp hserved.1
      exact ⟨_, by omega, .climbing hserved⟩
    · have hnat : p'.cursor.height.toNat < p.cursor.height.toNat :=
        UInt64.lt_iff_toNat_lt.mp hlower
      exact ⟨_, by omega, .descending hl'⟩

/-- **Over linked blocks an advance ends.** -/
theorem advance_ends (h : Unchanging outside tip B) {top : UInt64} (htop : tip = .ok top)
    (hlinked : Unbroken B top) (e : Engine) :
    ∀ (fuel : Nat) {n : Nat} {p : Engine.Progress} {l : Ledger}, ToGo B top p l n → n < fuel →
      Leads Ledger.perform outside (e.advance fuel p) l fun r _ => r ≠ .error .exhausted
  | 0, _, _, _, _, hfuel => absurd hfuel (by simp)
  | fuel + 1, n, p, l, hn, hfuel => by
    unfold Engine.advance
    refine Leads.bind (advanceOnce_lowers h htop hlinked e hn) ?_ ?_
    · rintro (p' | _ | reason) l' ⟨-, hmoved⟩
      · obtain ⟨n', hlower, hn'⟩ := hmoved p' rfl
        exact advance_ends h htop hlinked e fuel hn' (by omega)
      · exact Leads.done (by simp)
      · exact Leads.done (by simp)
    · intro halt l' hend heq
      cases heq
      exact hend.1 rfl

/-- Without a tip an advance ends at once. -/
theorem advance_ends_tipless (h : Unchanging outside tip B) {cause : ChainError}
    (htip : tip = .error cause) (e : Engine) {fuel : Nat} (hfuel : 0 < fuel) :
    Leads Ledger.perform outside (e.advance fuel p) l fun r _ => r ≠ .error .exhausted := by
  obtain ⟨fuel, rfl⟩ := Nat.exists_eq_succ_of_ne_zero (Nat.ne_of_gt hfuel)
  unfold Engine.advance
  refine Leads.bind (advanceOnce_leads ledger_steady e p l) ?_ ?_
  · intro i l' hend
    cases hend with
    | stopped hi hstops =>
      cases i with
      | moved p' => exact absurd rfl (hi p')
      | settled => exact Leads.done (by simp)
      | interrupted reason => exact Leads.done (by simp)
    | served htop hlt hblock hover => cases htip.symm.trans (h.tip_eq htop)
  · intro halt l' hend
    cases hend with
    | served htop hlt hblock hover => cases htip.symm.trans (h.tip_eq htop)

end

/-! ## Broken links -/

/-- A cursor that cannot get past a broken link: it is below its lower block, or stands on it. -/
def Trapped (m : UInt64) (b : Block) (c : Cursor) : Prop :=
  c.height < m ∨ c = ⟨m, b.hash⟩

/-- The ledger is one in memory, with its blocks under their heights. -/
def Ledger.Readable : Ledger → Prop
  | .memory l => (Ledger.memory l).Shelved
  | .rows _ => False

section

variable {τ : Type} {outside : Handler τ} {tip : Except ChainError UInt64}
  {B : UInt64 → Except ChainError Block} {l l' : Ledger} {p : Engine.Progress} {m : UInt64}
  {b : Block}

theorem Ledger.Readable.shelved (h : l.Readable) : l.Shelved := by
  cases l with
  | memory l => exact h
  | rows l => exact h.elim

theorem Ledger.Readable.reads (h : l.Readable) (height : UInt64) (cause : LedgerError) :
    (l.perform (.getBlock height)).1 ≠ .error cause := by
  cases l with
  | memory l => exact fun heq => nomatch heq
  | rows l => exact h.elim

theorem Ledger.Readable.perform (h : l.Readable) (op : LedgerOp) : (l.perform op).2.Readable := by
  cases l with
  | memory l => exact Ledger.Shelved.perform (l := .memory l) h op
  | rows l => exact h.elim

theorem Ledger.Readable.replay (h : l.Readable) (tr : List Exchange) :
    (replay Ledger.perform l tr).Readable :=
  replay_frame (K := fun _ => True) (R := fun l l' => l.Readable → l'.Readable)
    (fun _ h => h) (fun h h' hl => h' (h hl)) (fun op _ _ hl => hl.perform op)
    (fun _ _ _ => trivial) l h

/-- A rewind of a trapped cursor finds a block, and leads to a trapped cursor. -/
theorem Trapped.rewound (h : Unchanging outside tip B) (hbroken : BrokenAbove B m b)
    {c : Cursor} (hc : Trapped m b c) (hpos : 0 < c.height) (hl : l.Readable)
    (hlive : ∀ header isFork t, (outside (.announce header isFork) t).1 = .ok ())
    {r : Except Halt (Option Cursor)}
    (hend : RewindEnd Ledger.perform outside c l r l') :
    ∃ c', r = .ok (some c') ∧ Trapped m b c' ∧ l'.Readable := by
  obtain ⟨hlowest, hrange⟩ := below_range c hpos
  have hbelow : c.height ≤ m := by
    rcases hc with hlt | rfl
    · exact UInt64.le_of_lt hlt
    · exact UInt64.le_refl _
  cases hend with
  | unreadable hread => exact absurd hread (hl.reads _ _)
  | failed hsearch => cases hsearch with | unreadable hread => exact absurd hread (hl.reads _ _)
  | stuck hsearch =>
    cases hsearch with
    | unserved hmissed hunserved =>
      obtain ⟨a, ha⟩ := hbroken.served c.below hlowest (by grind)
      cases ha.symm.trans (h.block_eq hunserved)
  | @moved a l' hsearch =>
    have hl' : l'.Readable := by
      cases hsearch with
      | cached hne hcached => exact hl
      | fetched hmissed hserved => exact hl.perform _
    obtain ⟨hheight, -, hlower⟩ := h.found hl.shelved hpos hsearch
    refine ⟨_, rfl, ?_, hl'.perform _⟩
    have hcursor : a.header.cursor.height = c.below := hheight
    by_cases hlt : c.below < m
    · exact .inl (hcursor ▸ hlt)
    · -- the rewind was clamped at the lowest height, where the broken link begins
      have hlow : c.below = m := by grind
      have hserved : B m = .ok a := hlow ▸ hlower.resolve_left (by grind)
      obtain rfl : b = a := Except.ok.inj (hbroken.lower.symm.trans hserved)
      exact .inr (h.cursor_eq hserved)
  | died hsearch hdied =>
    obtain ⟨t, ht⟩ := hdied
    rw [hlive] at ht
    cases ht

/-- An iteration moves a trapped cursor to a trapped one. -/
theorem advanceOnce_circles (h : Unchanging outside tip B) {top : UInt64} (htop : tip = .ok top)
    (hmt : m < top) (hbroken : BrokenAbove B m b)
    (hlive : ∀ header isFork t, (outside (.announce header isFork) t).1 = .ok ()) (e : Engine)
    (hp : Trapped m b p.cursor) (hl : l.Readable) :
    Leads Ledger.perform outside (e.advanceOnce p) l fun r l' =>
      ∃ p', r = .ok (.moved p') ∧ Trapped m b p'.cursor ∧ l'.Readable := by
  have hpos := hbroken.pos
  refine (advanceOnce_leads ledger_steady e p l).mono ?_
  intro r l' hend
  have hbelow : p.cursor.height ≤ m := by
    rcases hp with hlt | heq
    · exact UInt64.le_of_lt hlt
    · rw [heq]
      exact UInt64.le_refl _
  cases hend with
  | stopped hi hstops =>
    exfalso
    cases hstops with
    | interrupted hstate hanswer =>
      obtain ⟨t, ht⟩ := hanswer
      exact hstate (ht.symm.trans (h.running t))
    | tipless hanswer => cases htop.symm.trans (h.tip_eq hanswer)
    | caughtUp hle hanswer =>
      have heq := Except.ok.inj (htop.symm.trans (h.tip_eq hanswer))
      grind
    | unserved hanswer =>
      have hunserved := h.block_eq hanswer
      by_cases hlt : p.cursor.height < m
      · obtain ⟨a, ha⟩ := hbroken.served (p.cursor.height + 1) (by grind) (by grind)
        cases ha.symm.trans hunserved
      · obtain ⟨b', hb', -⟩ := hbroken.upper
        rw [show p.cursor.height = m by grind] at hunserved
        cases hb'.symm.trans hunserved
  | @served tip' b' r l' htip hlt hblock hover =>
    have hb' : B (p.cursor.height + 1) = .ok b' := h.block_eq hblock
    cases hover with
    | rewound hbreaks hrewind =>
      obtain ⟨c', rfl, hc', hl'⟩ := hp.rewound h hbroken hbreaks.1 (hl.perform _) hlive hrewind
      exact ⟨_, rfl, hc', hl'⟩
    | @accepted batch hextends hbatch =>
      refine ⟨_, rfl, ?_, ((hl.replay batch).perform _).perform _⟩
      rcases hp with hlt | heq
      · -- the next block is still below the broken link, or is its lower block
        by_cases hnext : p.cursor.height + 1 = m
        · rw [hnext] at hb'
          obtain rfl : b = b' := Except.ok.inj (hbroken.lower.symm.trans hb')
          exact .inr (h.cursor_eq hb')
        · refine .inl ?_
          rw [show (acceptedAt p b').cursor = _ from h.cursor_eq hb']
          show p.cursor.height + 1 < m
          grind
      · -- the upper block of the link is not accepted
        refine absurd ?_ hextends
        obtain ⟨b'', hb'', hne⟩ := hbroken.upper
        rw [heq] at hb' ⊢
        obtain rfl : b'' = b' := Except.ok.inj (hb''.symm.trans hb')
        exact ⟨by grind, hne⟩
    | died hextends hbatch hdied =>
      obtain ⟨t, ht⟩ := hdied
      rw [hlive] at ht
      cases ht

/-- **Below a broken link an advance goes round for ever.** -/
theorem advance_circles (h : Unchanging outside tip B) {top : UInt64} (htop : tip = .ok top)
    (hmt : m < top) (hbroken : BrokenAbove B m b)
    (hlive : ∀ header isFork t, (outside (.announce header isFork) t).1 = .ok ()) (e : Engine) :
    ∀ (fuel : Nat) {p : Engine.Progress} {l : Ledger}, Trapped m b p.cursor → l.Readable →
      Leads Ledger.perform outside (e.advance fuel p) l fun r _ => r = .error .exhausted
  | 0, _, _, _, _ => fun _ => rfl
  | fuel + 1, p, l, hp, hl => by
    unfold Engine.advance
    refine Leads.bind (advanceOnce_circles h htop hmt hbroken hlive e hp hl) ?_ ?_
    · rintro _ l' ⟨p', ⟨⟩, hp', hl'⟩
      exact advance_circles h htop hmt hbroken hlive e fuel hp' hl'
    · rintro halt l' ⟨p', ⟨⟩, -⟩

end

/-- **An advance ends unless a link is broken.**  Over a chain source whose answers do not change:
if the blocks that it serves are linked, then from any cursor and whatever a ledger of either kind
has cached, the heights of the cursor and of the tip together bound the iterations.  If a link is
broken and the blocks up to it are served, then with observers that live no bound is enough over a
ledger in memory, from any cursor that is below the link or on its lower block. -/
theorem advance_ends_or_circles {τ : Type} {outside : Handler τ} {tip : Except ChainError UInt64}
    {B : UInt64 → Except ChainError Block} (h : Unchanging outside tip B) :
    ((∀ top, tip = .ok top → Unbroken B top) →
      ∀ (e : Engine) (p : Engine.Progress) (l : Ledger) (t : τ) (fuel : Nat), l.Shelved →
        0 < fuel → (∀ top, tip = .ok top → p.cursor.height.toNat + top.toNat < fuel) →
          ((e.advance fuel p).run (amid Ledger.perform outside) (l, t)).result ≠
            .error .exhausted) ∧
    ((∀ header isFork t, (outside (.announce header isFork) t).1 = .ok ()) →
      ∀ top m b, tip = .ok top → m < top → BrokenAbove B m b →
        ∀ (e : Engine) (p : Engine.Progress) (l : MemoryLedger) (t : τ) (fuel : Nat),
          (Ledger.memory l).Shelved → Trapped m b p.cursor →
            ((e.advance fuel p).run (amid Ledger.perform outside) (.memory l, t)).result =
              .error .exhausted) := by
  constructor
  · intro hlinked e p l t fuel hl hpos hfuel
    cases htip : tip with
    | error cause => exact advance_ends_tipless h htip e hpos t
    | ok top =>
      exact advance_ends h htip (hlinked top htip) e fuel (.descending hl) (hfuel top htip) t
  · intro hlive top m b htop hmt hbroken e p l t fuel hl hp
    exact advance_circles (l := .memory l) h htop hmt hbroken hlive e fuel hp hl t

/-! ## A link that is broken -/

/-- Three blocks of which the last one names a hash that no block has. -/
def looseBlocks (h : UInt64) : Block :=
  if h = 3 then ⟨⟨"h3", "x2", 3, 0⟩, []⟩ else Rehearsal.ChainTables.linearBlock "h" h

theorem servingOnly_unchanging {N : UInt64 → Block} (hN : ∀ h, (N h).height = h) (tip : UInt64) :
    Unchanging (servingOnly N tip) (.ok tip) fun h => .ok (N h) := by
  refine ⟨fun _ => rfl, fun _ => rfl, fun _ _ => rfl, fun h b hb => ?_⟩
  rw [← Except.ok.inj hb]
  exact hN h

/-- The same advance ends over three linked blocks, and never ends if the last link is broken. -/
theorem looseBlocks_circle :
    ((bareEngine.advance 6 ⟨⟨2, "h2"⟩, 0, 0⟩).run (amid Ledger.perform
      (servingOnly (Rehearsal.ChainTables.linearBlock "h") 3)) (.memory .empty, ())).result ≠
        .error .exhausted ∧
    ∀ fuel, ((bareEngine.advance fuel ⟨⟨2, "h2"⟩, 0, 0⟩).run (amid Ledger.perform
      (servingOnly looseBlocks 3)) (.memory .empty, ())).result = .error .exhausted := by
  have hempty : (Ledger.memory .empty).Shelved := fun _ h => absurd h List.not_mem_nil
  constructor
  · have hlinked : Unbroken (fun h => .ok (Rehearsal.ChainTables.linearBlock "h" h)) 3 := by
      rintro h _ _ hpos hlt ⟨⟩ ⟨⟩
      exact (linkedBlocks_linked "h" 3).link h hpos hlt
    refine (advance_ends_or_circles (servingOnly_unchanging (fun _ => rfl) 3)).1 ?_ bareEngine _ _
      () 6 hempty (by decide) ?_
    · rintro _ ⟨⟩
      exact hlinked
    · rintro _ ⟨⟩
      decide
  · intro fuel
    have hheight : ∀ h, (looseBlocks h).height = h := by
      intro h
      unfold looseBlocks
      split
      · rename_i heq
        exact heq.symm
      · rfl
    have hbroken : BrokenAbove (fun h => .ok (looseBlocks h)) 2 (looseBlocks 2) :=
      ⟨by decide, rfl, ⟨_, rfl, by decide⟩, fun h _ _ => ⟨_, rfl⟩⟩
    exact (advance_ends_or_circles (servingOnly_unchanging hheight 3)).2 (fun _ _ _ => rfl) 3 2 _
      rfl (by decide) hbroken bareEngine _ _ () fuel hempty (.inr rfl)

end WalletScan
