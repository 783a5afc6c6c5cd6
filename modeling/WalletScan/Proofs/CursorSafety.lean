import WalletScan.Proofs.EngineTraces
import WalletScan.Proofs.KeptRecords
import WalletScan.Rehearsal.World

/-!
# The cursor follows the accounts

A cycle moves the cursor in two ways: a rewind puts it on the ancestor of an abandoned block, and an
acceptance puts it on the block that was just extracted.  The trace of a cycle tells the two apart
(`Rewinding`, `Extracted`).

* `cursor_after_accounts` — whenever a cycle accepts a block, each of its transactions was delivered
  or recorded before; a ledger operation that fails is the last one of all; and a record of an
  accepted block stays until its height is cleared, it is purged as unknown, or it is tried again.
* `retry_forgets_under_cursor` — the retry pass purges records of the block under the cursor.
-/

set_option autoImplicit false

namespace WalletScan

open Script
open Exchange (saved?)

/-! ## Cursor writes -/

/-- The exchanges end with a rewind that has deleted the records of the abandoned block and read or
fetched its ancestor. -/
def Rewinding (tr : List Exchange) : Prop :=
  ∃ past height deleted reads,
    tr = past ++ ⟨.ledger (.deleteUnscanned height), .ok deleted⟩ :: reads ∧
      ∀ x ∈ reads, x.IsBlockRead

/-- The exchanges end with the batch of a block that the chain source has just served. -/
def Extracted (b : Block) (batch tr : List Exchange) : Prop :=
  ∃ past tip height,
    tr = past ++ ⟨.chain .tip, .ok tip⟩ :: ⟨.chain (.block height), .ok b⟩ :: batch ∧
      ∀ x ∈ batch, x.InBatch b.height

/-- A record of a transaction at a height was saved, and nothing has removed it since. -/
def Stands (height : UInt64) (txid : String) (tr : List Exchange) : Prop :=
  (kept (UnscannedRecord.idOf height txid) tr).isSome

/-- A block was accepted: it was served, its batch was run, and each of its transactions was
delivered by that batch or has a record. -/
def Accepted (e : Engine) (b : Block) (tr : List Exchange) : Prop :=
  ∃ batch, Extracted b batch tr ∧ ∀ txid ∈ b.transactions,
    b.batch.Delivered e.classifier e.sinks txid batch ∨ Stands b.height txid tr

theorem Rewinding.behind {tr : List Exchange} (past : List Exchange) (h : Rewinding tr) :
    Rewinding (past ++ tr) := by
  obtain ⟨past', height, deleted, reads, rfl, hreads⟩ := h
  exact ⟨past ++ past', height, deleted, reads, by rw [List.append_assoc], hreads⟩

theorem Stands.behind {height : UInt64} {txid : String} {tr : List Exchange}
    (past : List Exchange) (h : Stands height txid tr) : Stands height txid (past ++ tr) :=
  kept_append_of_isSome past h

theorem Accepted.behind {e : Engine} {b : Block} {tr : List Exchange} (past : List Exchange)
    (h : Accepted e b tr) : Accepted e b (past ++ tr) := by
  obtain ⟨batch, ⟨past', tip, height, rfl, hbatch⟩, hall⟩ := h
  refine ⟨batch, ⟨past ++ past', tip, height, by rw [List.append_assoc], hbatch⟩, ?_⟩
  intro txid htxid
  exact (hall txid htxid).imp_right (Stands.behind past)

/-- The transactions that a batch could not deliver have records when it ends. -/
theorem Recorded.stands {height : UInt64} {failed : List String} {tr : List Exchange}
    {txid : String} (h : Recorded height failed tr) (htxid : txid ∈ failed) :
    Stands height txid tr := by
  rw [← h.failed_eq] at htxid
  obtain ⟨r, hr, rfl⟩ := List.mem_map.mp htxid
  have hid : r.id = UnscannedRecord.idOf height r.txid :=
    congrArg UnscannedRecord.id (h.own_id r hr)
  unfold Stands kept
  rw [keptFrom_of_no_deletion _ _ fun x hx => (h.kinds x hx).not_deletesRecords, Option.or_none,
    List.find?_isSome]
  exact ⟨r, List.mem_reverse.mpr hr, by simpa using hid⟩

/-- What the chain source answers before a block is accepted. -/
abbrev served (tip height : UInt64) (b : Block) : List Exchange :=
  [⟨.chain .tip, .ok tip⟩, ⟨.chain (.block height), .ok b⟩]

theorem accepted_of_accounted {e : Engine} {b : Block} {failed : List String}
    {batch : List Exchange} (tip height : UInt64)
    (h : b.batch.Accounted e.classifier e.sinks failed batch) :
    Accepted e b (served tip height b ++ batch) := by
  refine ⟨batch, ⟨[], tip, height, rfl, h.1.kinds⟩, fun txid htxid => ?_⟩
  rcases h.2 txid htxid with hdel | hfailed
  · exact .inl hdel
  · exact .inr ((h.1.stands hfailed).behind _)

/-- A cursor write is due if a rewind is about to end or the block was accepted. -/
def CursorDue (e : Engine) (before : List Exchange) : Exchange → Prop
  | ⟨.ledger (.setCursor c), _⟩ =>
    Rewinding before ∨ ∃ b, c = b.header.cursor ∧ Accepted e b before
  | _ => True

theorem CursorDue.behind {e : Engine} {past before : List Exchange} {x : Exchange}
    (h : CursorDue e before x) : CursorDue e (past ++ before) x := by
  unfold CursorDue at h ⊢
  split
  · rcases h with hrew | ⟨b, hc, hacc⟩
    · exact .inl (hrew.behind past)
    · exact .inr ⟨b, hc, hacc.behind past⟩
  · trivial

theorem cursorDue_of_still {e : Engine} {before : List Exchange} {x : Exchange}
    (h : ¬ x.MovesCursor) : CursorDue e before x := by
  unfold CursorDue
  split
  · exact absurd trivial h
  · trivial

/-- Cursor writes are due when they happen. -/
def cursorLaw (e : Engine) : TraceLaw := .justified (CursorDue e) CursorDue.behind

theorem cursorLaw_of_still {e : Engine} {tr : List Exchange} {h : Option Halt}
    (hstill : ∀ x ∈ tr, ¬ x.MovesCursor) : (cursorLaw e).Holds tr h := by
  rintro before x after rfl
  exact cursorDue_of_still (hstill x (by simp))

theorem obeys_cursorLaw {α : Type} {e : Engine} {p : Script α} {K : Exchange → Prop}
    (h : p.Orderly K) (hK : ∀ x, K x → ¬ x.MovesCursor) : p.Obeys (cursorLaw e) :=
  Ensures.mono h fun _ _ h => cursorLaw_of_still fun x hx => hK x (h.1 x hx)

/-- A single cursor write that is due. -/
theorem cursorLaw_of_due {e : Engine} {before after : List Exchange} {x : Exchange}
    {h : Option Halt} (hbefore : ∀ y ∈ before, ¬ y.MovesCursor) (hdue : CursorDue e before x)
    (hafter : ∀ y ∈ after, ¬ y.MovesCursor) :
    (cursorLaw e).Holds (before ++ x :: after) h :=
  TraceLaw.justified_insert CursorDue.behind (cursorLaw_of_still hbefore (h := none)) hdue
    (cursorLaw_of_still hafter (h := h))

/-! ## One iteration -/

theorem rewind_obeys_cursorLaw (e : Engine) (cursor : Cursor) :
    (Engine.rewind cursor).Obeys (cursorLaw e) := by
  unfold Engine.rewind
  refine ObeysAfter.obeys ?_
  refine ObeysAfter.store (fun deleted => ?_) fun cause => cursorLaw_of_still ?_
  rotate_left
  · simp [Exchange.MovesCursor]
  refine ObeysAfter.store (fun stored => ?_) fun cause => cursorLaw_of_still ?_
  rotate_left
  · simp [Exchange.MovesCursor]
  have hstill : ∀ {reads : List Exchange}, (∀ x ∈ reads, x.IsBlockRead) →
      ∀ x ∈ [] ++ [⟨.ledger (.deleteUnscanned cursor.height), .ok deleted⟩] ++
        [⟨.ledger (.getBlock cursor.height), .ok stored⟩] ++ reads, ¬ Exchange.MovesCursor x := by
    intro reads hreads
    simp only [List.forall_mem_append, List.forall_mem_singleton]
    exact ⟨⟨⟨by simp, id⟩, id⟩, fun x hx => (hreads x hx).not_movesCursor⟩
  refine ObeysAfter.bind (Engine.ancestor_quiet _ _).orderly.only ?_ ?_
  · rintro reads (_ | b) hreads
    · exact ObeysAfter.done (cursorLaw_of_still (hstill hreads))
    · have hdue : Rewinding ([] ++ [⟨.ledger (.deleteUnscanned cursor.height), .ok deleted⟩] ++
          [⟨.ledger (.getBlock cursor.height), .ok stored⟩] ++ reads) := by
        refine ⟨[], cursor.height, deleted,
          ⟨.ledger (.getBlock cursor.height), .ok stored⟩ :: reads,
          by simp, ?_⟩
        rw [List.forall_mem_cons]
        exact ⟨trivial, hreads⟩
      refine ObeysAfter.store (fun u => ?_) fun cause =>
        cursorLaw_of_due (hstill hreads) (.inl hdue) (by simp)
      refine Obeys.after ?_ (cursorLaw_of_due (hstill hreads) (.inl hdue) (by simp))
      refine obeys_cursorLaw (K := Exchange.IsNotice) ?_ fun x hx => hx.not_movesCursor
      cases stored with
      | none => exact Obeys.bind (Quiet.report trivial).orderly fun _ => Obeys.done _
      | some a =>
        refine Obeys.bind (Orderly.announce fun _ => trivial) fun _ => ?_
        exact Obeys.bind (Quiet.report trivial).orderly fun _ => Obeys.done _
  · exact fun reads x hreads => cursorLaw_of_still (hstill hreads)

theorem served_still (tip height : UInt64) (b : Block) :
    ∀ x ∈ served tip height b, ¬ x.MovesCursor := by simp [Exchange.MovesCursor]

theorem accept_obeysAfter_cursorLaw (e : Engine) (b : Block) (tip height : UInt64) :
    (e.accept b).ObeysAfter (served tip height b) (cursorLaw e) := by
  unfold Engine.accept
  refine ObeysAfter.bind
    (Ensures.and (runBatch_ensures e b.batch) (runBatch_quiet e _).orderly.only) ?_ ?_
  · rintro batch failed ⟨hacc, hbatch⟩
    have hstill : ∀ x ∈ served tip height b ++ batch, ¬ Exchange.MovesCursor x := by
      rw [List.forall_mem_append]
      exact ⟨served_still tip height b, fun x hx => (hbatch x hx).isRescan.1.not_movesCursor⟩
    have hdue : ∀ answer, CursorDue e (served tip height b ++ batch)
        ⟨.ledger (.setCursor b.header.cursor), answer⟩ :=
      fun answer => .inr ⟨b, rfl, accepted_of_accounted tip height hacc⟩
    refine ObeysAfter.store (fun u => ?_) fun cause => cursorLaw_of_due hstill (hdue _) (by simp)
    refine Obeys.after ?_ (cursorLaw_of_due hstill (hdue _) (by simp))
    refine obeys_cursorLaw (K := fun x => ¬ x.MovesCursor) ?_ fun x hx => hx
    exact Obeys.bind (Quiet.store fun _ => id).orderly fun _ => Orderly.announce fun _ => id
  · rintro batch x ⟨-, hbatch⟩
    refine cursorLaw_of_still ?_
    rw [List.forall_mem_append]
    exact ⟨served_still tip height b, fun x hx => (hbatch x hx).isRescan.1.not_movesCursor⟩

theorem advanceOver_obeysAfter_cursorLaw (e : Engine) (p : Engine.Progress) (b : Block)
    (tip height : UInt64) : (e.advanceOver p b).ObeysAfter (served tip height b) (cursorLaw e) := by
  have hserved : (cursorLaw e).Holds (served tip height b) none :=
    cursorLaw_of_still (served_still tip height b)
  unfold Engine.advanceOver
  split
  · refine Obeys.after (Obeys.bind (rewind_obeys_cursorLaw e p.cursor) ?_) hserved
    rintro (_ | rewound) <;> exact Obeys.done _
  · refine ObeysAfter.bind (accept_obeysAfter_cursorLaw e b tip height) ?_ fun tr x h => h
    rintro tr _ h
    refine Obeys.after ?_ h
    refine obeys_cursorLaw (K := Exchange.IsNotice) ?_ fun x hx => hx.not_movesCursor
    exact Obeys.bind (Quiet.report trivial).orderly fun _ => Obeys.done _

theorem advance_obeys_cursorLaw (e : Engine) (fuel : Nat) (p : Engine.Progress) :
    (e.advance fuel p).Obeys (cursorLaw e) := by
  refine Engine.advance_obeys e (cursorLaw_of_still (by simp)) (fun p => ?_) fuel p
  refine Engine.advanceOnce_obeys e p ?_ ?_ ?_ ?_
  · exact fun state => cursorLaw_of_still (by simp [Exchange.MovesCursor])
  · exact fun answer => cursorLaw_of_still (by simp [Exchange.MovesCursor])
  · exact fun height cause => cursorLaw_of_still (by simp [Exchange.MovesCursor])
  · exact fun tip height b => advanceOver_obeysAfter_cursorLaw e p b tip height

/-! ## The retry pass -/

/-- A transaction was tried again at a height: what it means was delivered, or the block that was
fetched again does not list it. -/
def Resolved (e : Engine) (height : UInt64) (txid : String) (tr : List Exchange) : Prop :=
  (∃ b : Batch, b.height = height ∧ b.Delivered e.classifier e.sinks txid tr) ∨
    ∃ b : Block, (⟨.chain (.block height), .ok b⟩ : Exchange) ∈ tr ∧ txid ∉ b.transactions

theorem Resolved.mono {e : Engine} {height : UInt64} {txid : String} {tr tr' : List Exchange}
    (h : Resolved e height txid tr) (hsub : tr ⊆ tr') : Resolved e height txid tr' := by
  rcases h with ⟨b, hheight, hdel⟩ | ⟨b, hserved, hnot⟩
  · exact .inl ⟨b, hheight, hdel.mono hsub⟩
  · exact .inr ⟨b, hsub hserved, hnot⟩

/-- Only unknown transactions are purged, and only resolved ones are dropped. -/
def RemovalDue (e : Engine) (before : List Exchange) : Exchange → Prop
  | ⟨.ledger (.deleteUnscannedByReason lead), _⟩ => lead = unknownTransactionLead
  | ⟨.ledger (.deleteUnscannedRecord height txid), _⟩ => Resolved e height txid before
  | _ => True

theorem RemovalDue.behind {e : Engine} {past before : List Exchange} {x : Exchange}
    (h : RemovalDue e before x) : RemovalDue e (past ++ before) x := by
  unfold RemovalDue at h ⊢
  split
  · exact h
  · exact h.mono (by simp)
  · trivial

theorem removalDue_of_other {e : Engine} {before : List Exchange} {x : Exchange}
    (h : ¬ x.IsRetryDeletion) : RemovalDue e before x := by
  unfold RemovalDue
  split
  · exact absurd trivial h
  · exact absurd trivial h
  · trivial

/-- Records are removed one by one, or by their reason, only when that is due. -/
def removalLaw (e : Engine) : TraceLaw := .justified (RemovalDue e) RemovalDue.behind

theorem removalLaw_of_other {e : Engine} {tr : List Exchange} {h : Option Halt}
    (hother : ∀ x ∈ tr, ¬ x.IsRetryDeletion) : (removalLaw e).Holds tr h := by
  rintro before x after rfl
  exact removalDue_of_other (hother x (by simp))

theorem obeys_removalLaw {α : Type} {e : Engine} {p : Script α} {K : Exchange → Prop}
    (h : p.Orderly K) (hK : ∀ x, K x → ¬ x.IsRetryDeletion) : p.Obeys (removalLaw e) :=
  Ensures.mono h fun _ _ h => removalLaw_of_other fun x hx => hK x (h.1 x hx)

theorem removalLaw_snoc {e : Engine} {before : List Exchange} {x : Exchange} {h h' : Option Halt}
    (hbefore : (removalLaw e).Holds before h) (hdue : RemovalDue e before x) :
    (removalLaw e).Holds (before ++ [x]) h' :=
  TraceLaw.justified_insert RemovalDue.behind hbefore hdue
    (removalLaw_of_other (by simp) (h := h'))

theorem dropSettled_obeysAfter_removalLaw (e : Engine) (height : UInt64) (failing : List String) :
    ∀ (records : List UnscannedRecord) {past : List Exchange}, (removalLaw e).Holds past none →
      (∀ r ∈ records, r.txid ∉ failing → Resolved e height r.txid past) →
        (Engine.dropSettled height failing records).ObeysAfter past (removalLaw e)
  | [], _, hpast, _ => ObeysAfter.done hpast
  | r :: rest, past, hpast, hresolved => by
    rw [List.forall_mem_cons] at hresolved
    unfold Engine.dropSettled
    by_cases hfails : failing.contains r.txid = true
    · rw [if_pos hfails]
      exact dropSettled_obeysAfter_removalLaw e height failing rest hpast hresolved.2
    · rw [if_neg hfails]
      have hdue := hresolved.1 fun hmem => hfails (List.contains_iff_mem.mpr hmem)
      refine ObeysAfter.store (fun answer => ?_) fun cause => removalLaw_snoc hpast hdue
      refine dropSettled_obeysAfter_removalLaw e height failing rest (removalLaw_snoc hpast hdue) ?_
      exact fun r' hr' hnot => (hresolved.2 r' hr' hnot).mono (by simp)

theorem retryHeight_obeys_removalLaw (e : Engine) (height : UInt64)
    (records : List UnscannedRecord) : (e.retryHeight height records).Obeys (removalLaw e) := by
  unfold Engine.retryHeight
  split
  · exact Obeys.bind (obeys_removalLaw (K := fun x => ¬ x.IsRetryDeletion)
      (Quiet.store fun _ => id).orderly fun _ h => h) fun _ => Obeys.done _
  · rename_i hne
    have hquiet : (Engine.retryBatch height records).Quiet (Exchange.IsRescanAt fun _ => True) :=
      Engine.retryBatch_quiet hne trivial records
    refine ObeysAfter.obeys (ObeysAfter.bind (Ensures.and
      (Engine.retryBatch_ensures height records) hquiet.orderly.only) ?_ ?_)
    · rintro tr (_ | batch) ⟨hbatch, horderly⟩
      · exact ObeysAfter.done (removalLaw_of_other fun x hx => (horderly x hx).1.2)
      · refine ObeysAfter.bind
          (Ensures.and (runBatch_ensures e batch) (runBatch_quiet e batch).orderly) ?_ ?_
        · rintro tr' failing ⟨hacc, horderly'⟩
          have hlaw : (removalLaw e).Holds ([] ++ tr ++ tr') none := by
            refine removalLaw_of_other fun x hx => ?_
            simp only [List.nil_append, List.mem_append] at hx
            exact hx.elim (fun hx => (horderly x hx).1.2)
              fun hx => (horderly'.1 x hx).isRescan.2
          refine ObeysAfter.bind (P := fun tr'' _ => (removalLaw e).Holds ([] ++ tr ++ tr' ++ tr'')
            none) (dropSettled_obeysAfter_removalLaw e height failing records hlaw ?_)
            (fun tr'' _ h => ObeysAfter.done h) fun tr'' _ h => h
          -- what does not fail again was delivered, if the batch lists it at all
          intro r hr hnot
          rcases hbatch with ⟨-, b, rfl, rfl⟩ | ⟨-, -, hash, rfl⟩
          · by_cases hlisted : r.txid ∈ b.transactions
            · exact .inl ⟨_, rfl, ((hacc.2 _ hlisted).resolve_right hnot).mono (by simp)⟩
            · exact .inr ⟨b, by simp, hlisted⟩
          · have hlisted : r.txid ∈ records.map (·.txid) := List.mem_map_of_mem hr
            exact .inl ⟨_, rfl, ((hacc.2 _ hlisted).resolve_right hnot).mono (by simp)⟩
        · rintro tr' x ⟨-, horderly'⟩
          refine removalLaw_of_other fun x hx => ?_
          simp only [List.nil_append, List.mem_append] at hx
          exact hx.elim (fun hx => (horderly x hx).1.2) fun hx => (horderly'.1 x hx).isRescan.2
    · rintro tr x ⟨-, horderly⟩
      exact removalLaw_of_other fun x hx => (horderly x hx).1.2

theorem retryHeights_obeys_removalLaw (e : Engine) :
    ∀ groups, (e.retryHeights groups).Obeys (removalLaw e)
  | [] => Obeys.done _
  | (height, records) :: rest => by
    unfold Engine.retryHeights
    refine Obeys.bind (retryHeight_obeys_removalLaw e height records) fun tried => ?_
    exact Obeys.bind (retryHeights_obeys_removalLaw e rest) fun others => Obeys.done _

theorem retry_obeys_removalLaw (e : Engine) : e.retry.Obeys (removalLaw e) := by
  unfold Engine.retry
  have hpurge : (Script.store (.deleteUnscannedByReason unknownTransactionLead)).Obeys
      (removalLaw e) := by
    rintro (cause | purged)
    all_goals exact @removalLaw_snoc e [] _ none _ (removalLaw e).nil rfl
  refine Obeys.bind hpurge fun purged => ?_
  refine Obeys.bind (obeys_removalLaw (K := fun x => ¬ x.IsRetryDeletion)
    (Quiet.store fun _ => id).orderly fun _ h => h) fun records => ?_
  exact Obeys.bind (retryHeights_obeys_removalLaw e _) fun retried => Obeys.done _

/-! ## Whole cycles -/

theorem cycle_obeys_cursorLaw (e : Engine) (fuel : Nat) : (e.cycle fuel).Obeys (cursorLaw e) := by
  refine Engine.cycle_obeys e fuel (fun h => ?_) (fun event => ?_)
    (advance_obeys_cursorLaw e fuel) ?_
  · exact cursorLaw_of_still fun x hx => (h.1.1 x hx).1.not_movesCursor
  · exact cursorLaw_of_still (by simp [Exchange.MovesCursor])
  · exact obeys_cursorLaw (Engine.retry_quiet e).orderly fun x hx => hx.not_movesCursor

theorem cycle_obeys_removalLaw (e : Engine) (fuel : Nat) :
    (e.cycle fuel).Obeys (removalLaw e) := by
  refine Engine.cycle_obeys e fuel (fun h => ?_) (fun event => ?_) (fun p => ?_)
    (retry_obeys_removalLaw e)
  · exact removalLaw_of_other fun x hx => (h.1.1 x hx).2
  · exact removalLaw_of_other (by simp [Exchange.IsRetryDeletion])
  · exact obeys_removalLaw (Engine.advance_orderly e fuel p) fun x hx => hx

theorem cycle_obeys_ledgerFailsLast (e : Engine) (fuel : Nat) :
    (e.cycle fuel).Obeys .ledgerFailsLast := by
  have hsingle : ∀ {x : Exchange}, (∀ op cause, x ≠ ⟨.ledger op, .error cause⟩) →
      TraceLaw.ledgerFailsLast.Holds [x] none :=
    fun hx => (orderly_single (K := fun _ => True) trivial hx).2
  refine Engine.cycle_obeys e fuel (fun h => h.1.2) (fun event => hsingle (by simp))
    (fun p => ?_) ?_
  · exact Ensures.mono (Engine.advance_orderly e fuel p) fun _ _ h => h.2
  · exact Ensures.mono (Engine.retry_quiet e) fun _ _ h => h.1.2

/-- How the record of a transaction can be gone: its height was cleared by a rewind, or by the retry
pass at height zero; it was purged because the chain does not know the transaction; or the
transaction was tried again. -/
inductive Gone (e : Engine) (tr since : List Exchange) (r : UnscannedRecord) : Prop
  | cleared (n : Nat) (h : (⟨.ledger (.deleteUnscanned r.height), .ok n⟩ : Exchange) ∈ since)
  | purged (n : Nat) (hlead : beginsWith unknownTransactionLead r.reason = true)
      (h : (⟨.ledger (.deleteUnscannedByReason unknownTransactionLead), .ok n⟩ : Exchange) ∈ since)
  | resolved (height : UInt64) (txid : String) (n : Nat)
      (hid : UnscannedRecord.idOf height txid = r.id)
      (h : (⟨.ledger (.deleteUnscannedRecord height txid), .ok n⟩ : Exchange) ∈ since)
      (hresolved : Resolved e height txid tr)

/-- A deletion that meets a record is one of those that are due. -/
theorem gone_of_removes {e : Engine} {past since : List Exchange} {r : UnscannedRecord}
    {x : Exchange} {h : Option Halt} (hlaw : (removalLaw e).Holds (past ++ since) h)
    (hx : x ∈ since) (hremoves : x.Removes r) : Gone e (past ++ since) since r := by
  obtain ⟨mid, later, rfl⟩ := List.mem_iff_append.mp hx
  have hdue : RemovalDue e (past ++ mid) x := hlaw _ x later (by simp)
  unfold Exchange.Removes at hremoves
  split at hremoves
  · subst hremoves
    exact .cleared _ hx
  · exact .resolved _ _ _ hremoves hx (hdue.mono (by simp))
  · have hlead : _ = unknownTransactionLead := hdue
    subst hlead
    exact .purged _ hremoves hx
  · exact hremoves.elim

/-- Since a block was accepted, each of its transactions is delivered or recorded, unless its record
is gone for one of the reasons above. -/
def Lasting (e : Engine) (b : Block) (before since : List Exchange) : Prop :=
  ∀ txid ∈ b.transactions,
    b.batch.Delivered e.classifier e.sinks txid before ∨
    Stands b.height txid (before ++ since) ∨
    ∃ r ∈ readOff saved? (before ++ since), r.id = UnscannedRecord.idOf b.height txid ∧
      Gone e (before ++ since) since r

theorem Accepted.lasting {e : Engine} {b : Block} {before since : List Exchange} {h : Option Halt}
    (hacc : Accepted e b before) (hlaw : (removalLaw e).Holds (before ++ since) h) :
    Lasting e b before since := by
  intro txid htxid
  obtain ⟨batch, ⟨past, tip, height, hbefore, hbatch⟩, hall⟩ := hacc
  rcases hall txid htxid with hdel | hstands
  · refine .inl (hdel.mono fun x hx => ?_)
    simp [hbefore, hx]
  · obtain ⟨r, hr⟩ := Option.isSome_iff_exists.mp hstands
    obtain ⟨hsaved, hid⟩ := mem_saved_of_kept hr
    have hkept : kept (UnscannedRecord.idOf b.height txid) (before ++ since) =
        keptFrom (UnscannedRecord.idOf b.height txid) (some r) since := by
      unfold kept at hr ⊢
      rw [keptFrom_append, hr]
    rcases keptFrom_or_removed hid since with hstill | ⟨r', x, hx, hremoves, hid', hfrom⟩
    · refine .inr (.inl ?_)
      unfold Stands
      rwa [hkept]
    · refine .inr (.inr ⟨r', ?_, hid', gone_of_removes hlaw hx hremoves⟩)
      rw [readOff_append, List.mem_append]
      rcases hfrom with rfl | hsaved'
      · exact .inl hsaved
      · exact .inr hsaved'

/-- **The cursor never passes an unaccounted transaction.**  In every run of a cycle a cursor write
ends a rewind, or else puts the cursor on a block each of whose transactions was delivered or
recorded before.  A ledger operation that fails is the last exchange, and the cycle fails with its
cause.  After an acceptance each transaction stays delivered or recorded at every point, until its
record is cleared with its height, purged as unknown, or tried again. -/
theorem cursor_after_accounts {σ : Type} (e : Engine) (fuel : Nat) (handler : Handler σ) (s : σ) :
    let r := (e.cycle fuel).run handler s
    (∀ before c answer after, r.trace = before ++ ⟨.ledger (.setCursor c), answer⟩ :: after →
      Rewinding before ∨ ∃ b : Block, c = b.header.cursor ∧ Accepted e b before) ∧
    (∀ before op cause after, r.trace = before ++ ⟨.ledger op, .error cause⟩ :: after →
      after = [] ∧ r.result = .error (.failed (.ledger cause))) ∧
    (∀ before c since rest, r.trace = before ++ since ++ rest →
      since.head? = some ⟨.ledger (.setCursor c), .ok ()⟩ →
      Rewinding before ∨ ∃ b : Block, c = b.header.cursor ∧ Lasting e b before since) := by
  intro r
  have hcursor : (cursorLaw e).Holds r.trace (haltOf r.result) :=
    (cycle_obeys_cursorLaw e fuel).run handler s
  have hremoval : (removalLaw e).Holds r.trace (haltOf r.result) :=
    (cycle_obeys_removalLaw e fuel).run handler s
  have hfails : TraceLaw.ledgerFailsLast.Holds r.trace (haltOf r.result) :=
    (cycle_obeys_ledgerFailsLast e fuel).run handler s
  refine ⟨fun before c answer after htrace => hcursor _ _ _ htrace, ?_, ?_⟩
  · intro before op cause after htrace
    obtain ⟨rfl, hhalt⟩ := hfails before op cause after htrace
    exact ⟨rfl, result_of_haltOf hhalt⟩
  · intro before c since rest htrace hhead
    obtain ⟨later, rfl⟩ : ∃ later, since = ⟨.ledger (.setCursor c), .ok ()⟩ :: later :=
      List.head?_eq_some_iff.mp hhead
    have hdue : CursorDue e before ⟨.ledger (.setCursor c), .ok ()⟩ :=
      hcursor before _ (later ++ rest) (by simp [htrace])
    refine hdue.imp_right ?_
    rintro ⟨b, hc, hacc⟩
    refine ⟨b, hc, hacc.lasting (h := none) fun before' x after' heq => ?_⟩
    exact hremoval before' x (after' ++ rest) (by simp [htrace, heq])

/-! ## A transaction that the chain does not know -/

open Rehearsal

/-- A block with a transaction that no chain source serves. -/
def unknownBlock : Block := ⟨⟨"h1", "h0", 1, 0⟩, ["t1"]⟩

/-- A chain of that block alone, over an empty ledger. -/
def unknownWorld : World where
  chain := { ChainTables.empty with blocks := [(1, .ok unknownBlock)] }
  ledger := .memory .empty
  faults := []
  sinks := []
  channel := none
  hooks := []
  task := .idle
  attached := false

/-- The same world with a ledger that refuses its next cursor write. -/
def refusingWorld : World := { unknownWorld with faults := [("set_cursor", ⟨0, 1⟩)] }

/-- What happens before the cursor moves to the block. -/
def unknownBefore : List Exchange :=
  [⟨.ledger .getCursor, .ok none⟩, ⟨.chain .tip, .ok 1⟩, ⟨.report (.started 0), ()⟩,
    ⟨.taskState, .running⟩, ⟨.chain .tip, .ok 1⟩, ⟨.chain (.block 1), .ok unknownBlock⟩,
    ⟨.chain (.transaction "t1"), .failed (.transactionNotFound "t1")⟩,
    ⟨.ledger (.saveUnscanned (.of 1 "t1" (ChainError.transactionNotFound "t1").message)), .ok ()⟩]

/-- What happens from then on. -/
def unknownSince : List Exchange :=
  [⟨.ledger (.setCursor ⟨1, "h1"⟩), .ok ()⟩, ⟨.ledger (.putBlock unknownBlock), .ok ()⟩,
    ⟨.announce unknownBlock.header false, .ok ()⟩, ⟨.report (.progress 1 1), ()⟩,
    ⟨.taskState, .running⟩, ⟨.chain .tip, .ok 1⟩, ⟨.report (.completed 1 1), ()⟩,
    ⟨.ledger (.deleteUnscannedByReason unknownTransactionLead), .ok 1⟩,
    ⟨.ledger .listUnscanned, .ok []⟩]

theorem unknownWorld_trace :
    (unknownWorld.run (bareEngine.cycle 2)).trace = unknownBefore ++ unknownSince := by
  with_unfolding_all rfl

theorem refusingWorld_trace : (refusingWorld.run (bareEngine.cycle 2)).trace =
    unknownBefore ++
      [⟨.ledger (.setCursor ⟨1, "h1"⟩), .error (.unexpected "injected set_cursor")⟩] := by
  with_unfolding_all rfl

/-- The law on a run in which the cursor moves, and on one in which it is refused to move. -/
theorem cursor_after_accounts_of_unknown :
    (∃ b : Block, ⟨1, "h1"⟩ = b.header.cursor ∧ Accepted bareEngine b unknownBefore) ∧
    (∃ b : Block, ⟨1, "h1"⟩ = b.header.cursor ∧ Lasting bareEngine b unknownBefore unknownSince) ∧
    (refusingWorld.run (bareEngine.cycle 2)).result =
      .error (.failed (.ledger (.unexpected "injected set_cursor"))) := by
  obtain ⟨hmoves, -, hlasts⟩ := cursor_after_accounts bareEngine 2 World.handle unknownWorld
  obtain ⟨-, hfails, -⟩ := cursor_after_accounts bareEngine 2 World.handle refusingWorld
  have hnot : ¬ Rewinding unknownBefore := by
    rintro ⟨past, height, deleted, reads, heq, -⟩
    have hkinds : ∀ x ∈ unknownBefore, ¬ x.DeletesRecords := by
      simp [unknownBefore, Exchange.DeletesRecords]
    exact hkinds ⟨.ledger (.deleteUnscanned height), .ok deleted⟩ (by simp [heq]) trivial
  refine ⟨?_, ?_, ?_⟩
  · exact (hmoves _ _ _ unknownSince.tail unknownWorld_trace).resolve_left hnot
  · refine (hlasts _ ⟨1, "h1"⟩ _ [] ?_ rfl).resolve_left hnot
    rw [List.append_nil]
    exact unknownWorld_trace
  · exact (hfails _ _ _ [] refusingWorld_trace).2

/-- **The retry pass forgets under the cursor.**  When the cycle ends the cursor stands on a block
with a transaction that was not delivered, and the ledger holds no record. -/
theorem retry_forgets_under_cursor :
    let r := unknownWorld.run (bareEngine.cycle 2)
    r.state.ledger = .memory
        ⟨some unknownBlock.header.cursor, Index.empty.insert 1 unknownBlock, .empty, .empty, 1⟩ ∧
      "t1" ∈ unknownBlock.transactions ∧
      ¬ unknownBlock.batch.Delivered bareEngine.classifier bareEngine.sinks "t1" r.trace := by
  intro r
  refine ⟨by decide +kernel, by decide, ?_⟩
  rintro ⟨data, ⟨tx, fee, ⟨⟨⟩, -⟩ | hfound, -⟩, -⟩
  have hmem : (⟨.chain (.transaction "t1"), .found tx⟩ : Exchange) ∈
      unknownBefore ++ unknownSince :=
    unknownWorld_trace ▸ hfound
  simp [unknownBefore, unknownSince] at hmem

end WalletScan
