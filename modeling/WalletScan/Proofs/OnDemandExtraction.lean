import WalletScan.Proofs.FeeCharges
import WalletScan.Proofs.FixedSources

/-!
# Extraction on demand agrees with scanning

A caller may have one transaction extracted without a scan.  The hash of its block is then looked up
last and put into the finished records; a scan knows the hash before it classifies.

* `withBlockHash_classify` — a hash that is put in afterwards makes no difference.
* `fixedExtraction`, `extractOne_ends` — what the answers of a source make of a transaction.
* `extractBatch_single` — a batch of one transaction hands these data to every sink.
* `extractTransaction_agrees` — the two ways fail together, and yield the same data.
-/

set_option autoImplicit false

namespace WalletScan

open Script

/-! ## Block hashes that are put in afterwards -/

/-- A change of one value and a map over all values commute. -/
theorem OwnerMap.map_update {α β : Type} (f : α → β) {change : Option α → α}
    {change' : Option β → β} (h : ∀ d, f (change d) = change' (d.map f)) (key : OwnerKey)
    (m : OwnerMap α) :
    ((m.update key change).map fun e => (e.1, f e.2)) =
      OwnerMap.update key change' (m.map fun e => (e.1, f e.2)) := by
  induction m with
  | nil => simp [OwnerMap.update, h]
  | cons head rest ih =>
    obtain ⟨k, v⟩ := head
    simp only [OwnerMap.update, List.map_cons]
    split <;> simp [h, ih]

/-- A book with other values. -/
def OwnerBook.map {α β : Type} (f : α → β) (b : OwnerBook α) : OwnerBook β where
  rows := b.rows.map fun e : OwnerKey × α => (e.1, f e.2)
  sorted := List.pairwise_map.mpr b.sorted

theorem OwnerBook.map_update {α β : Type} (f : α → β) {change : Option α → α}
    {change' : Option β → β} (h : ∀ d, f (change d) = change' (d.map f)) (key : OwnerKey)
    (b : OwnerBook α) : (b.update key change).map f = (b.map f).update key change' :=
  OwnerBook.ext (OwnerMap.map_update f h key b.rows)

/-- The same data with another block hash in every record of every owner. -/
def withBlockHashes (hash : String) (m : OwnerMap ExtractedData) : OwnerMap ExtractedData :=
  m.map fun e => (e.1, e.2.withBlockHash hash)

section

variable (asset : ChainAsset) (owners : Owners) (blockHash hash : String) (fee : Option UInt64)
  (tx : Transaction) (g : TransferGroup)

theorem dataOrEmpty_withBlockHash (d : Option ExtractedData) :
    (dataOrEmpty d).withBlockHash hash = dataOrEmpty (d.map (·.withBlockHash hash)) := by
  cases d <;> rfl

theorem inputs_withBlockHash :
    ((asset.inputs tx blockHash g).map fun i => { i with blockHash := hash }) =
      asset.inputs tx hash g := by
  unfold ChainAsset.inputs
  rw [List.map_map]
  rfl

theorem outputs_withBlockHash :
    ((asset.outputs tx blockHash g).map fun o => { o with blockHash := hash }) =
      asset.outputs tx hash g := by
  unfold ChainAsset.outputs
  rw [List.map_map]
  rfl

theorem bookSenders_withBlockHash (d : Option ExtractedData) :
    (bookSenders asset blockHash tx g d).withBlockHash hash =
      bookSenders asset hash tx g (d.map (·.withBlockHash hash)) := by
  unfold bookSenders
  rw [← dataOrEmpty_withBlockHash]
  simp only [ExtractedData.withBlockHash, List.map_append, inputs_withBlockHash]
  rfl

theorem bookReceivers_withBlockHash (d : Option ExtractedData) :
    (bookReceivers asset blockHash tx g d).withBlockHash hash =
      bookReceivers asset hash tx g (d.map (·.withBlockHash hash)) := by
  unfold bookReceivers
  rw [← dataOrEmpty_withBlockHash]
  simp only [ExtractedData.withBlockHash, List.map_append, outputs_withBlockHash]
  cases (dataOrEmpty d).transaction <;> rfl

theorem bookFee_withBlockHash (amount : UInt64) (d : Option ExtractedData) :
    (bookFee asset blockHash tx g amount d).withBlockHash hash =
      bookFee asset hash tx g amount (d.map (·.withBlockHash hash)) := by
  unfold bookFee
  rw [← dataOrEmpty_withBlockHash]
  cases g.senders.head? with
  | none => rfl
  | some payer =>
    simp only [ExtractedData.withBlockHash, List.map_append]
    rfl

/-- What was attributed so far, with another block hash in every record. -/
def Attribution.withBlockHash (a : Attribution) : Attribution :=
  ⟨a.data.map (·.withBlockHash hash), a.feeCharged⟩

theorem attributeSenders_withBlockHash (a : Attribution) :
    (attributeSenders asset owners blockHash fee tx g a).withBlockHash hash =
      attributeSenders asset owners hash fee tx g (a.withBlockHash hash) := by
  cases howner : firstOwner owners g.senders with
  | none => rw [attributeSenders_of_unowned howner, attributeSenders_of_unowned howner]
  | some source =>
    have hbooked : (a.data.update ⟨.asset g.denom, source⟩ (bookSenders asset blockHash tx g)).map
        (·.withBlockHash hash) =
        (a.data.map (·.withBlockHash hash)).update ⟨.asset g.denom, source⟩
          (bookSenders asset hash tx g) :=
      OwnerBook.map_update _ (bookSenders_withBlockHash asset blockHash hash tx g) _ _
    rw [attributeSenders_of_owned howner, attributeSenders_of_owned howner]
    unfold Attribution.withBlockHash
    simp only [Attribution.mk.injEq, and_true]
    cases a.feeCharged with
    | true => exact hbooked
    | false =>
      cases fee with
      | none => exact hbooked
      | some amount =>
        simp only [Bool.false_eq_true, if_false, Option.elim_some, ← hbooked]
        exact OwnerBook.map_update _ (bookFee_withBlockHash asset blockHash hash tx g amount) _ _

theorem attributeReceivers_withBlockHash (a : Attribution) :
    (attributeReceivers asset owners blockHash tx g a).withBlockHash hash =
      attributeReceivers asset owners hash tx g (a.withBlockHash hash) := by
  cases howner : firstOwner owners g.receivers with
  | none => rw [attributeReceivers_of_unowned howner, attributeReceivers_of_unowned howner]
  | some source =>
    rw [attributeReceivers_of_owned howner, attributeReceivers_of_owned howner]
    unfold Attribution.withBlockHash
    simp only [Attribution.mk.injEq, and_true]
    exact OwnerBook.map_update _ (bookReceivers_withBlockHash asset blockHash hash tx g) _ _

/-- No identifier depends on the block hash, so it may be put in after the classification. -/
theorem withBlockHash_classify :
    withBlockHashes hash (classify asset owners blockHash fee tx) =
      classify asset owners hash fee tx := by
  suffices hfold : ∀ (groups : List TransferGroup) (a : Attribution),
      (groups.foldl (attributeGroup asset owners blockHash fee tx) a).withBlockHash hash =
        groups.foldl (attributeGroup asset owners hash fee tx) (a.withBlockHash hash) from
    congrArg (fun a => a.data.rows) (hfold tx.groups ⟨.empty, false⟩)
  intro groups
  induction groups with
  | nil => exact fun a => rfl
  | cons g rest ih =>
    intro a
    rw [List.foldl_cons, List.foldl_cons, ih]
    unfold attributeGroup
    rw [attributeReceivers_withBlockHash, attributeSenders_withBlockHash]

end

/-! ## One transaction -/

/-- What comes of a mined transaction, given the answers of the chain source. -/
def fixedExtraction (chain : (q : ChainQuery) → q.Answer) (c : Classifier) (height : UInt64)
    (blockHash txid : String) (tx : Transaction) : Extraction :=
  match knownFee chain c.owners tx with
  | .error cause => ⟨txid, height, .error (feeReason cause), none⟩
  | .ok fee => ⟨txid, tx.height, .ok (classify c.asset c.owners blockHash fee tx), none⟩

theorem Transaction.atHeight_of_mined {tx : Transaction} (h : tx.height ≠ 0) (height : UInt64) :
    tx.atHeight height = tx := by
  unfold Transaction.atHeight
  rw [if_neg h]

section

variable {L τ : Type} {perform : (op : LedgerOp) → L → Except LedgerError op.Answer × L}
  {outside : Handler τ} {chain : (q : ChainQuery) → q.Answer}

variable (perform) in
theorem extractOne_ends (hchain : FixedAnswers outside chain) (c : Classifier) (height : UInt64)
    (blockHash : String) {txid : String} {tx : Transaction}
    (hfound : chain (.transaction txid) = .found tx) (hmined : tx.height ≠ 0) (l : L) :
    Ends perform outside (extractOne c height blockHash false txid) l
      (.ok (fixedExtraction chain c height blockHash txid tx)) l := by
  have hsearched : Ends perform outside (lookUp txid false) l (.ok (.found tx)) l := by
    rw [← hfound]
    exact Ends.chainQuery hchain (.transaction txid) l
  unfold extractOne fixedExtraction
  refine Ends.bind hsearched ?_
  simp only [Transaction.atHeight_of_mined hmined]
  refine Ends.bind (lookUpFee_ends perform hchain c.owners tx l) ?_
  cases knownFee chain c.owners tx with
  | error cause => exact Ends.done _ l
  | ok fee => exact Ends.done _ l

theorem fixedExtraction_crash (c : Classifier) (height : UInt64) (blockHash txid : String)
    (tx : Transaction) : (fixedExtraction chain c height blockHash txid tx).crash = none := by
  unfold fixedExtraction
  split <;> rfl

theorem fixedExtraction_txid (c : Classifier) (height : UInt64) (blockHash txid : String)
    (tx : Transaction) : (fixedExtraction chain c height blockHash txid tx).txid = txid := by
  unfold fixedExtraction
  split <;> rfl

/-! ## A batch of one transaction -/

theorem Charged.eq_knownFee {owners : Owners} {tx : Transaction} {tr : List Exchange}
    {answer : Except ChainError (Option UInt64)} (h : Charged owners tx tr answer)
    (hanswers : ∀ q a, (⟨.chain q, a⟩ : Exchange) ∈ tr → a = chain q) :
    answer = knownFee chain owners tx := by
  unfold knownFee
  cases h with
  | free hpayer => rw [hpayer]
  | known hpayer => rw [hpayer, ← hanswers _ _ (List.mem_singleton_self _)]
  | unknown hpayer => rw [hpayer, ← hanswers _ _ (List.mem_singleton_self _)]

theorem Searched.eq_found {b : Batch} {txid : String} {tr : List Exchange} {answer : Lookup}
    {tx : Transaction} (h : Searched b txid tr answer) (hblock : b.isMempool = false)
    (hanswers : ∀ q a, (⟨.chain q, a⟩ : Exchange) ∈ tr → a = chain q)
    (hfound : chain (.transaction txid) = .found tx) : answer = .found tx := by
  cases h with
  | pending hmempool => exact absurd (hblock.symm.trans hmempool) Bool.false_ne_true
  | fallback hmempool => exact absurd (hblock.symm.trans hmempool) Bool.false_ne_true
  | committed => exact (hanswers _ _ (List.mem_singleton_self _)).trans hfound

/-- What a batch finds out about a mined transaction is what the source answers. -/
theorem Examined.eq_fixedExtraction {c : Classifier} {b : Batch} {txid : String}
    {tr : List Exchange} {e : Extraction} {tx : Transaction} (h : Examined c b txid tr e)
    (hblock : b.isMempool = false)
    (hanswers : ∀ q a, (⟨.chain q, a⟩ : Exchange) ∈ tr → a = chain q)
    (hfound : chain (.transaction txid) = .found tx) (hmined : tx.height ≠ 0) :
    e = fixedExtraction chain c b.height b.blockHash txid tx := by
  unfold fixedExtraction
  cases h with
  | unfound h => cases h.eq_found hblock hanswers hfound
  | died h => cases h.eq_found hblock hanswers hfound
  | uncharged h hfee =>
    obtain rfl := Lookup.found.inj (h.eq_found hblock
      (fun q a hx => hanswers q a (List.mem_append_left _ hx)) hfound)
    rw [Transaction.atHeight_of_mined hmined] at hfee
    rw [← hfee.eq_knownFee fun q a hx => hanswers q a (List.mem_append_right _ hx)]
  | extracted h hfee =>
    obtain rfl := Lookup.found.inj (h.eq_found hblock
      (fun q a hx => hanswers q a (List.mem_append_left _ hx)) hfound)
    rw [Transaction.atHeight_of_mined hmined] at hfee ⊢
    rw [← hfee.eq_knownFee fun q a hx => hanswers q a (List.mem_append_right _ hx)]

theorem Handling.Fits.failure_of_error {sinks : Nat} {p : Handling} (h : p.Fits sinks)
    {reason : String} (hreason : p.result.outcome = .error reason) (height : UInt64) :
    p.record height = some (.of height p.result.txid reason) := by
  unfold Handling.record
  rw [h.failure_eq]
  unfold Extraction.firstFailure
  rw [hreason]
  rfl

/-- A single result is offered to the sinks, and if it failed then a record of that is saved, or the
ledger refuses it. -/
theorem Handled.single {sinks : Nat} {height : UInt64} {e : Extraction} {tr : List Exchange}
    {verdict : Except LedgerError (Nat × List String)} (h : Handled sinks height [e] tr verdict) :
    sinkCalls tr = e.deliveries sinks ∧ ∀ reason, e.outcome = .error reason →
      ((∃ n, verdict = .ok (n, [e.txid])) ∨ ∃ cause, verdict = .error cause) ∧
        .ledger (.saveUnscanned (.of height e.txid reason)) ∈ tr.map Sigma.fst := by
  -- the ledger took the record, if there was one, or the batch was given up with it
  cases h with
  | whole hresults hall =>
    obtain ⟨p, rfl, rfl⟩ := List.map_eq_singleton_iff.mp hresults
    have hfits := (hall p (List.mem_singleton_self p)).fits
    rw [List.flatMap_singleton]
    refine ⟨hfits.sinkCalls_trace height, fun reason hreason => ?_⟩
    have hrecord := hfits.failure_of_error hreason height
    refine ⟨.inl ⟨p.taken + 0, ?_⟩, ?_⟩
    · simp [recordsOf, hrecord, UnscannedRecord.of]
    · simp [Handling.trace, hrecord]
  | @abandoned handled last rest r cause hresults hall hlast hrecord =>
    obtain ⟨hnone, hlater⟩ : handled = [] ∧ last.result :: rest = [e] := by
      cases handled with
      | nil => exact ⟨rfl, hresults⟩
      | cons p others => simp at hresults
    obtain ⟨rfl, rfl⟩ := List.cons.inj hlater
    subst hnone
    refine ⟨?_, fun reason hreason => ?_⟩
    · rw [List.flatMap_nil, List.nil_append, sinkCalls_append, hlast.fits.sinkCalls_offered]
      exact List.append_nil _
    · rw [hlast.fits.failure_of_error hreason height] at hrecord
      obtain rfl := Option.some.inj hrecord
      exact ⟨.inr ⟨cause, rfl⟩, by simp⟩

variable (perform) in
/-- A batch of one transaction of its own block hands what the source makes of it to every sink; if
that is nothing, then the batch fails and asks for a record. -/
theorem extractBatch_single (hchain : FixedAnswers outside chain) (c : Classifier) (sinks : Nat)
    (blockHash : String) {txid : String} {tx : Transaction}
    (hfound : chain (.transaction txid) = .found tx) (hmined : tx.height ≠ 0) (l : L) (t : τ) :
    let e := fixedExtraction chain c tx.height blockHash txid tx
    let r := (extractBatch c sinks (.block tx.height blockHash [txid])).run
      (amid perform outside) (l, t)
    sinkCalls r.trace = e.deliveries sinks ∧ ∀ reason, e.outcome = .error reason →
      (∃ cause, r.result = .ok (.error cause)) ∧
        .ledger (.saveUnscanned (.of tx.height txid reason)) ∈ r.trace.map Sigma.fst := by
  intro e r
  obtain ⟨answer, hresult, inquiries, tr', verdict, htxids, hadmitted, hhandled, htrace, rfl⟩ :=
    (extractBatch_handles c sinks (.block tx.height blockHash [txid])).run
      (amid perform outside) (l, t)
  obtain ⟨q, rfl, htxid⟩ := List.map_eq_singleton_iff.mp htxids
  have hexamined := (hadmitted q (List.mem_singleton_self q)).examined
  have hasked : r.trace = q.asked ++ tr' := by simpa using htrace
  rw [htxid] at hexamined
  have hq : q.found = e := hexamined.eq_fixedExtraction rfl
    (fun q' a hx => hchain.chain_answer _ l t (by
      show _ ∈ r.trace
      rw [hasked]
      exact List.mem_append_left _ hx)) hfound hmined
  have hcrash : e.crash = none := fixedExtraction_crash c _ _ _ _
  rw [List.map_singleton, hq, deliveryOrder_eq_self (by simpa using hcrash)] at hhandled
  obtain ⟨hcalls, hfailed⟩ := hhandled.single
  rw [hasked, sinkCalls_append, sinkCalls_eq_nil hexamined.isLookup, List.nil_append]
  refine ⟨hcalls, fun reason hreason => ?_⟩
  obtain ⟨hverdict, hsaved⟩ := hfailed reason hreason
  rw [fixedExtraction_txid] at hverdict hsaved
  constructor
  · rcases hverdict with ⟨n, rfl⟩ | ⟨cause, rfl⟩
    · exact ⟨_, hresult⟩
    · exact ⟨_, hresult⟩
  · rw [List.map_append]
    exact List.mem_append_right _ hsaved

/-! ## A transaction on demand -/

/-- What a caller gets of a transaction that was extracted. -/
def demanded (txid : String) :
    Except String (OwnerMap ExtractedData) → Except Halt (OwnerMap (List ExtractedData))
  | .error reason => .error (.failed (.extraction txid reason))
  | .ok data => .ok (data.map fun (owner, d) => (owner, [d]))

/-- On demand, a transaction yields what it yields under the hash of its block. -/
theorem extractTransaction_ends (hchain : FixedAnswers outside chain) (c : Classifier)
    {txid : String} {tx : Transaction} (hfound : chain (.transaction txid) = .found tx)
    (hmined : tx.height ≠ 0) {l l' : L} {hash : String}
    (hhash : Ends perform outside (Engine.resolveHash tx.height) l (.ok hash) l') :
    ∃ l'', Ends perform outside (Engine.extractTransaction c txid) l
      (demanded txid (fixedExtraction chain c tx.height hash txid tx).outcome) l'' := by
  have hextracted := extractOne_ends perform hchain c 0 "" hfound hmined l
  unfold Engine.extractTransaction
  unfold fixedExtraction at hextracted ⊢
  cases hfee : knownFee chain c.owners tx with
  | error cause =>
    rw [hfee] at hextracted
    exact ⟨l, Ends.bind hextracted (Ends.halt _ l)⟩
  | ok fee =>
    rw [hfee] at hextracted
    -- the records were made under the empty hash and get the resolved one only now
    have hpatched := withBlockHash_classify c.asset c.owners "" hash fee tx
    refine ⟨l', Ends.bind hextracted (Ends.bind hhash ?_)⟩
    show Ends perform outside (Script.done _) l' (.ok _) l'
    rw [← hpatched]
    unfold withBlockHashes
    rw [List.map_map]
    exact Ends.done _ l'

end

/-- **Extraction on demand agrees with scanning.**  A hash that is put in after the classification
makes the same data as one that was known before, whatever the transaction, the owners and the fee.
So if a chain source with fixed answers serves a mined transaction and the hash of its block is
resolved, then extraction on demand fails exactly if the transaction fails to be extracted in the
batch of that block; otherwise each owner gets a list of exactly the data that the batch offers to
every sink.  This holds whatever the sinks answer in the batch, and whatever ledger it runs over. -/
theorem extractTransaction_agrees {L τ : Type}
    (perform : (op : LedgerOp) → L → Except LedgerError op.Answer × L) {outside : Handler τ}
    {chain : (q : ChainQuery) → q.Answer} (hchain : FixedAnswers outside chain) (c : Classifier)
    {txid : String} {tx : Transaction} (hfound : chain (.transaction txid) = .found tx)
    (hmined : tx.height ≠ 0) {l : L} {t : τ} {hash : String}
    (hhash : ((Engine.resolveHash tx.height).run (amid perform outside) (l, t)).result = .ok hash) :
    let demand := (Engine.extractTransaction c txid).run (amid perform outside) (l, t)
    (∀ asset owners blockHash fee tx, ((classify asset owners "" fee tx).map fun e =>
        (e.1, e.2.withBlockHash blockHash)) = classify asset owners blockHash fee tx) ∧
      ∃ outcome : Except String (OwnerMap ExtractedData),
        ((∃ halt, demand.result = .error halt) ↔ ∃ reason, outcome = .error reason) ∧
        ∀ l' t', ((extractOne c tx.height hash false txid).run (amid perform outside)
            (l', t')).result = .ok ⟨txid, tx.height, outcome, none⟩ ∧
          ∀ sinks,
            let batch := (extractBatch c sinks (.block tx.height hash [txid])).run
              (amid perform outside) (l', t')
            (∀ reason, outcome = .error reason →
              demand.result = .error (.failed (.extraction txid reason)) ∧
                (∃ cause, batch.result = .ok (.error cause)) ∧ sinkCalls batch.trace = [] ∧
                .ledger (.saveUnscanned (.of tx.height txid reason)) ∈
                  batch.trace.map Sigma.fst) ∧
            ∀ data, outcome = .ok data →
              demand.result = .ok (data.map fun (owner, d) => (owner, [d])) ∧
                sinkCalls batch.trace = dataDeliveries sinks data := by
  intro demand
  obtain ⟨r, l₁, hends, -⟩ := resolveHash_ends perform hchain tx.height l
  obtain rfl : r = .ok hash := (hends.result t).symm.trans hhash
  obtain ⟨l₂, hdemand⟩ := extractTransaction_ends hchain c hfound hmined hends
  have hdemanded := hdemand.result t
  refine ⟨fun asset owners blockHash fee tx =>
    withBlockHash_classify asset owners "" blockHash fee tx,
    (fixedExtraction chain c tx.height hash txid tx).outcome, ?_,
    fun l' t' => ⟨?_, fun sinks => ?_⟩⟩
  · rw [hdemanded]
    cases (fixedExtraction chain c tx.height hash txid tx).outcome with
    | error reason => exact ⟨fun _ => ⟨reason, rfl⟩, fun _ => ⟨_, rfl⟩⟩
    | ok data => exact ⟨fun ⟨_, h⟩ => (by cases h), fun ⟨_, h⟩ => (by cases h)⟩
  · rw [(extractOne_ends perform hchain c tx.height hash hfound hmined l').result t']
    unfold fixedExtraction
    cases knownFee chain c.owners tx <;> rfl
  · intro batch
    obtain ⟨hcalls, hfailed⟩ := extractBatch_single perform hchain c sinks hash hfound
      hmined l' t'
    unfold Extraction.deliveries at hcalls
    constructor
    · intro reason hreason
      obtain ⟨hcause, hsaved⟩ := hfailed reason hreason
      rw [hreason] at hdemanded hcalls
      exact ⟨hdemanded, hcause, hcalls, hsaved⟩
    · intro data hdata
      rw [hdata] at hdemanded hcalls
      exact ⟨hdemanded, hcalls⟩

open Rehearsal

/-- A chain source that serves the swap and its block. -/
def swapWorld : World :=
  { pickyWorld with
    chain := { ChainTables.empty with
      blocks := [(9, .ok (ChainTables.linearBlock "h" 9))]
      transactions := [("s1", .found swap)] } }

/-- On demand, the swap yields what its block offers to both sinks. -/
theorem swap_on_demand :
    let c : Classifier := ⟨.default, watchedOwners⟩
    let handler := amid Ledger.perform (forgetful swapWorld)
    let demand := (Engine.extractTransaction c "s1").run handler (.memory .empty, ())
    let batch := (extractBatch c 2 (.block 9 "h9" ["s1"])).run handler (.memory .empty, ())
    ∃ data : OwnerMap ExtractedData,
      data.map (·.1) =
        [⟨.asset "BNB", "a"⟩, ⟨.asset "BNB", "b"⟩, ⟨.asset "USD", "b"⟩, ⟨.fee, "a"⟩] ∧
      demand.result = .ok (data.map fun (owner, d) => (owner, [d])) ∧
        sinkCalls batch.trace = dataDeliveries 2 data := by
  intro c handler demand batch
  have hhash : ((Engine.resolveHash swap.height).run handler (.memory .empty, ())).result =
      .ok "h9" := by
    decide +kernel
  have hfound : (forgetful swapWorld (.chain (.transaction "s1")) ()).1 = .found swap := rfl
  obtain ⟨-, outcome, -, hagrees⟩ := extractTransaction_agrees Ledger.perform
    ((forgetful_consistent swapWorld).fixedAnswers ()) c hfound (by decide) hhash
  obtain ⟨hextracted, hbatch⟩ := hagrees (.memory .empty) ()
  obtain ⟨-, hdata⟩ := hbatch 2
  have hone : ((extractOne c 9 "h9" false "s1").run handler (.memory .empty, ())).result =
      .ok ⟨"s1", 9, .ok (classify .default watchedOwners "h9" (some 30000) swap), none⟩ := rfl
  obtain rfl : outcome = .ok (classify .default watchedOwners "h9" (some 30000) swap) :=
    congrArg Extraction.outcome (Except.ok.inj (hextracted.symm.trans hone))
  obtain ⟨hdemand, hcalls⟩ := hdata _ rfl
  exact ⟨_, by decide +kernel, hdemand, hcalls⟩

end WalletScan
