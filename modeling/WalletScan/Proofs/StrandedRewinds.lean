import WalletScan.Proofs.LedgerRecords
import WalletScan.Proofs.Outcomes
import WalletScan.Rehearsal.World

/-!
# Rewinds that do not move the cursor

A rewind drops the records at its cursor before it looks for the block below.  If it finds none, the
cursor stays where it is, but the records are gone.

* `Stranded` — why a rewind has neither a new cursor nor a dead observer.
* `stranded_rewind_forgets` — what such a rewind does to a ledger of either kind: the cursor and the
  cached blocks stay, and of the records exactly those at the cursor are lost.
-/

set_option autoImplicit false

namespace WalletScan

open Script

/-- Why a rewind from a cursor does not move it: the block below is neither cached nor served, or a
cached block cannot be read back. -/
inductive Stranded {τ : Type} (outside : Handler τ) (c : Cursor) (l : Ledger) :
    Except Halt (Option Cursor) → Prop
  | unserved {cause : ChainError} (hmissed : Missed Ledger.perform c l)
    (hunserved : Answers outside (.chain (.block c.below)) (.error cause)) :
    Stranded outside c l (.ok none)
  | unreadable {height : UInt64} {cause : LedgerError}
    (hheight : height = c.height ∨ height = c.below)
    (hread : (l.perform (.getBlock height)).1 = .error cause) :
    Stranded outside c l (.error (.failed (.ledger cause)))

/-- The records of a height can be dropped without a look at the identifiers. -/
theorem records_deleteUnscanned (l : Ledger) (height : UInt64) :
    (l.perform (.deleteUnscanned height)).2.records =
      l.records.filter fun r => r.height != height := by
  cases l with
  | memory l => exact map_filter_of_eq fun _ _ => rfl
  | rows l => exact @rows_records [] l (.deleteUnscanned height) trivial

theorem getBlock_deleteUnscanned (l : Ledger) (height cleared : UInt64) :
    ((l.perform (.deleteUnscanned cleared)).2.perform (.getBlock height)).1 =
      (l.perform (.getBlock height)).1 := by
  cases l <;> rfl

section

variable {τ : Type} {outside : Handler τ} {l : Ledger} {c : Cursor}

/-- The search for the block below a cursor changes nothing if it finds none. -/
theorem stranded_of_search {r : Except Halt (Option Block)} {l' : Ledger}
    (h : AncestorEnd Ledger.perform outside c (l.perform (.deleteUnscanned c.height)).2 r l')
    (hr : ∀ b, r ≠ .ok (some b)) :
    Stranded outside c l (r.map fun _ => none) ∧
      l' = (l.perform (.deleteUnscanned c.height)).2 := by
  cases h with
  | cached hne hcached => exact absurd rfl (hr _)
  | fetched hmissed hserved => exact absurd rfl (hr _)
  | unserved hmissed hunserved =>
    refine ⟨.unserved ?_ hunserved, rfl⟩
    unfold Missed at hmissed ⊢
    rwa [getBlock_deleteUnscanned] at hmissed
  | unreadable hread =>
    rw [getBlock_deleteUnscanned] at hread
    exact ⟨.unreadable (.inr rfl) hread, rfl⟩

theorem stranded_of_rewindEnd {r : Except Halt (Option Cursor)} {l' : Ledger}
    (h : RewindEnd Ledger.perform outside c (l.perform (.deleteUnscanned c.height)).2 r l')
    (hr : r = .ok none ∨ ∃ cause, r = .error (.failed (.ledger cause))) :
    Stranded outside c l r ∧ l' = (l.perform (.deleteUnscanned c.height)).2 := by
  cases h with
  | unreadable hread =>
    rw [getBlock_deleteUnscanned] at hread
    exact ⟨.unreadable (.inl rfl) hread, rfl⟩
  | failed hsearch => exact stranded_of_search hsearch (by simp)
  | stuck hsearch => exact stranded_of_search hsearch (by simp)
  | moved hsearch => exact absurd hr (by simp)
  | died hsearch hdied => exact absurd hr (by simp)

/-- **A rewind that finds no ancestor forgets the records at its cursor.**  Over a ledger of either
kind and in any surroundings, a rewind that answers no cursor, or fails because the ledger does, did
not find the block below or could not read a block back.  It leaves the cursor and the cached blocks
as they were, and of the records those at other heights; so it changes nothing exactly if there was
no record at the height of its cursor. -/
theorem stranded_rewind_forgets {t : τ} {r : Except Halt (Option Cursor)} {s : Ledger × τ}
    {tr : List Exchange}
    (hrun : (Engine.rewind c).run (amid Ledger.perform outside) (l, t) = ⟨r, s, tr⟩)
    (hr : r = .ok none ∨ ∃ cause, r = .error (.failed (.ledger cause))) :
    Stranded outside c l r ∧ l.SamePosition s.1 ∧
      s.1.records = l.records.filter (fun r => r.height != c.height) ∧
      (s.1.records = l.records ↔ ∀ r ∈ l.records, r.height ≠ c.height) := by
  have hend := (rewind_leads ledger_steady c l : Leads _ outside _ _ _) t
  rw [hrun] at hend
  obtain ⟨hstranded, hleft⟩ := stranded_of_rewindEnd hend hr
  have hrecords : s.1.records = l.records.filter fun r => r.height != c.height := by
    rw [hleft]
    exact records_deleteUnscanned l c.height
  refine ⟨hstranded, ?_, hrecords, ?_⟩
  · rw [hleft]
    exact @Ledger.perform_keepsPosition (.deleteUnscanned c.height) trivial l
  · rw [hrecords, List.filter_eq_self]
    simp only [bne_iff_ne]

end

open Rehearsal

/-- A chain source that serves a block on top of an unknown one, and nothing below. -/
def toplessWorld : World where
  chain := { ChainTables.empty with blocks := [(3, .ok ⟨⟨"h3", "x2", 3, 0⟩, []⟩)] }
  ledger := .memory .empty
  faults := []
  sinks := []
  channel := none
  hooks := []
  task := .idle
  attached := false

/-- A ledger with a cursor, a record at it, and one at another height. -/
def markedLedger : Ledger := Ledger.saving [.of 2 "t2" "down", .of 7 "t7" "down"]
  (.memory { MemoryLedger.empty with cursor := some ⟨2, "h2"⟩ })

/-- The block at the cursor is not replaced by another one, and still its record is lost. -/
theorem markedLedger_rewind :
    let r := (Engine.rewind ⟨2, "h2"⟩).run (amid Ledger.perform World.handle)
      (markedLedger, toplessWorld)
    r.result = .ok none ∧ markedLedger.SamePosition r.state.1 ∧
      r.state.1.records.map (fun r => (r.height, r.txid)) = [(7, "t7")] ∧
      r.state.1.records ≠ markedLedger.records := by
  intro r
  have hresult : r.result = .ok none := by decide +kernel
  have hrun : r = ⟨.ok none, r.state, r.trace⟩ := by rw [← hresult]
  obtain ⟨-, hposition, -, hiff⟩ := stranded_rewind_forgets hrun (.inl rfl)
  refine ⟨hresult, hposition, by decide +kernel, fun heq => ?_⟩
  have hmem : UnscannedRecord.of 2 "t2" "down" ∈ markedLedger.records := by decide +kernel
  exact hiff.mp heq _ hmem rfl

end WalletScan
