import WalletScan.Proofs.Classification
import WalletScan.Proofs.DistinctEntries
import WalletScan.Proofs.FixedSources

/-!
# Histories of addresses count every transaction once

The histories of several addresses overlap.  A transaction counts where it first appears: its data
are then appended to the list of every owner that it means something to, and later appearances are
passed over.

* `find?_appendData` — what the data of one transaction add to the lists of the owners.
* `Tally` — the lists so far, as a function of the transactions that appeared.
* `addHistory_tally`, `addHistories_tally` — one history and a sequence of them keep a tally.
* `history_counts_once` — the lists that a caller gets, and an address that is asked about again.
-/

set_option autoImplicit false

namespace WalletScan

open Script Engine

/-! ## Data of one transaction -/

/-- Every record of some data is of a transaction, and there is a summary. -/
structure ExtractedData.Tells (d : ExtractedData) (txid : String) : Prop where
  inputs : ∀ i ∈ d.inputs, i.txid = txid
  outputs : ∀ o ∈ d.outputs, o.txid = txid
  summary : d.transaction.map (·.txid) = some txid

section

variable {asset : ChainAsset} {owners : Owners} {blockHash : String} {fee : Option UInt64}
  {tx : Transaction} {g : TransferGroup}

theorem bookSenders_tells {d : Option ExtractedData} (h : ∀ v ∈ d, v.Tells tx.txid) :
    (bookSenders asset blockHash tx g d).Tells tx.txid := by
  have hinputs : ∀ i ∈ asset.inputs tx blockHash g, i.txid = tx.txid :=
    fun i hi => congrArg Origin.txid (origin_inputs i hi).2
  cases d with
  | none => exact ⟨hinputs, by simp [bookSenders, dataOrEmpty, ExtractedData.empty], rfl⟩
  | some v =>
    have hv := h v rfl
    exact ⟨List.forall_mem_append.mpr ⟨hv.inputs, hinputs⟩, hv.outputs, rfl⟩

theorem bookReceivers_tells {d : Option ExtractedData} (h : ∀ v ∈ d, v.Tells tx.txid) :
    (bookReceivers asset blockHash tx g d).Tells tx.txid := by
  have houtputs : ∀ o ∈ asset.outputs tx blockHash g, o.txid = tx.txid :=
    fun o ho => congrArg Origin.txid (origin_outputs o ho)
  cases d with
  | none => exact ⟨by simp [bookReceivers, dataOrEmpty, ExtractedData.empty], houtputs, rfl⟩
  | some v =>
    have hv := h v rfl
    obtain ⟨s, hs, htxid⟩ := Option.map_eq_some_iff.mp hv.summary
    refine ⟨hv.inputs, List.forall_mem_append.mpr ⟨hv.outputs, houtputs⟩, ?_⟩
    simp [bookReceivers, dataOrEmpty, hs, htxid]

theorem bookGroup_tells {source : String} {d : Option ExtractedData}
    (h : ∀ v ∈ d, v.Tells tx.txid) :
    ∀ v ∈ bookGroup asset owners blockHash tx g source d, v.Tells tx.txid := by
  have hsent : ∀ v ∈ (if firstOwner owners g.senders = some source then
      some (bookSenders asset blockHash tx g d) else d), v.Tells tx.txid := by
    split
    · rintro _ ⟨rfl⟩
      exact bookSenders_tells h
    · exact h
  unfold bookGroup
  by_cases hreceived : firstOwner owners g.receivers = some source
  · simp only [if_pos hreceived]
    rintro _ ⟨rfl⟩
    exact bookReceivers_tells hsent
  · simp only [if_neg hreceived]
    exact hsent

/-- What a transaction means for an owner is told in records of this transaction. -/
theorem classify_tells {owner : OwnerKey} {d : ExtractedData}
    (h : (classify asset owners blockHash fee tx).lookup owner = some d) : d.Tells tx.txid := by
  obtain ⟨denom | _, source⟩ := owner
  · rw [lookup_classify_asset] at h
    suffices hfold : ∀ (groups : List TransferGroup) (d : Option ExtractedData),
        (∀ v ∈ d, v.Tells tx.txid) → ∀ v ∈ groups.foldl
          (fun d g => bookGroup asset owners blockHash tx g source d) d, v.Tells tx.txid from
      hfold _ none (by simp) d h
    intro groups
    induction groups with
    | nil => exact fun d hd => hd
    | cons g rest ih => exact fun d hd => ih _ (bookGroup_tells hd)
  · have hmem := (classify_sorted asset owners blockHash fee tx).mem_iff_lookup.mpr h
    obtain ⟨amount, payer, g, first, later, -, -, -, -, -, -, rfl⟩ := exists_of_mem_fee hmem
    refine ⟨?_, by simp [feeData], rfl⟩
    intro i hi
    obtain rfl := List.mem_singleton.mp hi
    rfl

end

/-! ## Lists of data -/

/-- The data of one transaction are appended to the lists of their owners. -/
theorem find?_appendData {data : OwnerMap ExtractedData} (hkeys : (data.map (·.1)).Nodup)
    (all : OwnerBook (List ExtractedData)) (owner : OwnerKey) :
    (appendData data all).find? owner =
      match data.lookup owner with
      | none => all.find? owner
      | some d => some ((all.find? owner).getD [] ++ [d]) := by
  unfold appendData
  induction data generalizing all with
  | nil => rfl
  | cons entry rest ih =>
    obtain ⟨k, d⟩ := entry
    obtain ⟨hk, hrest⟩ := List.nodup_cons.mp hkeys
    rw [List.foldl_cons, ih hrest, OwnerBook.find?_update, lookup_cons_ite]
    by_cases howner : owner = k
    · subst howner
      rw [lookup_eq_none_iff_not_mem_keys.mpr hk, if_pos rfl, if_pos rfl]
    · rw [if_neg howner, if_neg howner]

/-! ## Tallies -/

/-- A transaction as it enters a history: with its fee, if an owned sender pays one, and with the
hash of its block. -/
structure HistoryEntry where
  tx : Transaction
  fee : Option UInt64
  blockHash : String

/-- What a transaction of a history means for its owners. -/
def HistoryEntry.data (c : Classifier) (e : HistoryEntry) : OwnerMap ExtractedData :=
  classify c.asset c.owners e.blockHash e.fee e.tx

/-- After some transactions appeared, of which the entries are the first appearances: the lists of
the owners gather what the entries mean for them. -/
structure Tally (c : Classifier) (txs : List Transaction) (entries : List HistoryEntry)
    (h : History) : Prop where
  txs_eq : entries.map (·.tx) = txs.eraseDups
  seen : ∀ txid, txid ∈ h.seen ↔ ∃ tx ∈ txs, tx.txid = txid
  lists : ∀ owner,
    (h.data.find? owner).getD [] = entries.filterMap fun e => (e.data c).lookup owner
  nonempty : ∀ owner, h.data.find? owner ≠ some []

namespace Tally

variable {c : Classifier} {txs : List Transaction} {entries : List HistoryEntry} {h : History}

theorem empty (c : Classifier) : Tally c [] [] ⟨[], .empty⟩ :=
  ⟨rfl, by simp, fun _ => rfl, by simp⟩

/-- A transaction that appeared before adds nothing. -/
theorem pass (htally : Tally c txs entries h) {tx : Transaction}
    (hequal : ∀ tx' ∈ txs, tx'.txid = tx.txid → tx' = tx) (hseen : tx.txid ∈ h.seen) :
    Tally c (txs ++ [tx]) entries h := by
  obtain ⟨tx', htx', htxid⟩ := (htally.seen tx.txid).mp hseen
  have hmem : tx ∈ txs := hequal tx' htx' htxid ▸ htx'
  refine ⟨?_, ?_, htally.lists, htally.nonempty⟩
  · rw [eraseDups_append_singleton, if_pos hmem, htally.txs_eq]
  · intro txid
    rw [htally.seen]
    simp only [List.mem_append, List.mem_singleton]
    constructor
    · rintro ⟨tx₁, h₁, heq⟩
      exact ⟨tx₁, .inl h₁, heq⟩
    · rintro ⟨tx₁, h₁ | rfl, heq⟩
      · exact ⟨tx₁, h₁, heq⟩
      · exact ⟨tx₁, hmem, heq⟩

/-- A transaction that did not appear before adds its data. -/
theorem add (htally : Tally c txs entries h) {e : HistoryEntry} (hnew : e.tx.txid ∉ h.seen) :
    Tally c (txs ++ [e.tx]) (entries ++ [e])
      ⟨e.tx.txid :: h.seen, appendData (e.data c) h.data⟩ := by
  have hkeys : ((e.data c).map (·.1)).Nodup := (classify_sorted _ _ _ _ _).keys_nodup
  have hmem : e.tx ∉ txs := fun htx => hnew ((htally.seen _).mpr ⟨e.tx, htx, rfl⟩)
  have hlists := htally.lists
  refine ⟨?_, ?_, ?_, ?_⟩
  · rw [eraseDups_append_singleton, if_neg hmem, ← htally.txs_eq, List.map_append]
    rfl
  · intro txid
    rw [List.mem_cons, htally.seen]
    simp only [List.mem_append, List.mem_singleton]
    constructor
    · rintro (rfl | ⟨tx, htx, heq⟩)
      · exact ⟨e.tx, .inr rfl, rfl⟩
      · exact ⟨tx, .inl htx, heq⟩
    · rintro ⟨tx, htx | rfl, heq⟩
      · exact .inr ⟨tx, htx, heq⟩
      · exact .inl heq.symm
  · intro owner
    rw [find?_appendData hkeys, List.filterMap_append, ← hlists owner]
    cases hlookup : (e.data c).lookup owner <;> simp [hlookup]
  · intro owner
    rw [find?_appendData hkeys]
    cases (e.data c).lookup owner with
    | none => exact htally.nonempty owner
    | some d => simp

/-- An owner has a list exactly if an entry means something to it, and the list gathers these. -/
theorem mem_iff (htally : Tally c txs entries h) (owner : OwnerKey) (ds : List ExtractedData) :
    (owner, ds) ∈ h.data.rows ↔
      ds ≠ [] ∧ ds = entries.filterMap fun e => (e.data c).lookup owner := by
  rw [OwnerBook.mem_rows_iff, ← htally.lists]
  have hne := htally.nonempty owner
  cases hlookup : h.data.find? owner with
  | none => simp
  | some ds' =>
    rw [hlookup] at hne
    constructor
    · rintro ⟨rfl⟩
      exact ⟨fun hnil => hne (by rw [hnil]), rfl⟩
    · rintro ⟨-, rfl⟩
      rfl

end Tally

/-! ## Histories -/

section

variable {L τ : Type}

/-- A ledger after some blocks were looked up in it. -/
def afterReads (perform : (op : LedgerOp) → L → Except LedgerError op.Answer × L) (l : L)
    (heights : List UInt64) : L :=
  heights.foldl (fun l height => (perform (.getBlock height) l).2) l

/-- The fee of an entry is what a lookup finds, and its block hash what a lookup finds after some
blocks were looked up in the ledger. -/
structure HistoryEntry.LookedUp
    (perform : (op : LedgerOp) → L → Except LedgerError op.Answer × L) (outside : Handler τ)
    (owners : Owners) (l : L) (e : HistoryEntry) : Prop where
  fee : ∀ l' t, ((lookUpFee owners e.tx).run (amid perform outside) (l', t)).result =
    .ok (.ok e.fee)
  blockHash : ∃ heights, ∀ t, ((resolveHash e.tx.height).run (amid perform outside)
    (afterReads perform l heights, t)).result = .ok e.blockHash

/-- The transactions of an address, as far as the chain source serves them. -/
def servedHistory (chain : (q : ChainQuery) → q.Answer) (address : String) : List Transaction :=
  match chain (.history address) with
  | .ok txs => txs
  | .error _ => []

variable (perform : (op : LedgerOp) → L → Except LedgerError op.Answer × L) (outside : Handler τ)

/-- From a ledger, some transactions were counted by looking their fees and block hashes up. -/
def Counted (c : Classifier) (l : L) (txs : List Transaction) (h : History) (l' : L) : Prop :=
  (∃ heights, l' = afterReads perform l heights) ∧
    ∃ entries, Tally c txs entries h ∧ ∀ e ∈ entries, e.LookedUp perform outside c.owners l

variable {perform outside} {chain : (q : ChainQuery) → q.Answer} {c : Classifier} {l l' : L}

theorem Counted.empty : Counted perform outside c l [] ⟨[], .empty⟩ l :=
  ⟨⟨[], rfl⟩, [], Tally.empty c, by simp⟩

/-- A transaction that did not appear before is counted after its lookups. -/
theorem Counted.add {txs : List Transaction} {h : History} {e : HistoryEntry} {l'' : L}
    (hcounted : Counted perform outside c l txs h l') (hnew : e.tx.txid ∉ h.seen)
    (hfee : ∀ l t, ((lookUpFee c.owners e.tx).run (amid perform outside) (l, t)).result =
      .ok (.ok e.fee))
    (hhash : ∀ t, ((resolveHash e.tx.height).run (amid perform outside) (l', t)).result =
      .ok e.blockHash)
    (hreads : l'' = l' ∨ l'' = (perform (.getBlock e.tx.height) l').2) :
    Counted perform outside c l (txs ++ [e.tx])
      ⟨e.tx.txid :: h.seen, appendData (e.data c) h.data⟩ l'' := by
  obtain ⟨⟨heights, rfl⟩, entries, htally, hknown⟩ := hcounted
  have he : e.LookedUp perform outside c.owners l := ⟨hfee, heights, hhash⟩
  refine ⟨?_, entries ++ [e], htally.add hnew, ?_⟩
  · rcases hreads with rfl | rfl
    · exact ⟨heights, rfl⟩
    · refine ⟨heights ++ [e.tx.height], ?_⟩
      unfold afterReads
      rw [List.foldl_append]
      rfl
  · intro e' he'
    rcases List.mem_append.mp he' with he' | he'
    · exact hknown e' he'
    · obtain rfl := List.mem_singleton.mp he'
      exact he

variable (perform) in
/-- A history counts each of its transactions that did not appear before. -/
theorem addHistory_counts (hchain : FixedAnswers outside chain) {all : List Transaction}
    (hequal : Set.InjOn Transaction.txid {tx | tx ∈ all}) :
    ∀ (txs : List Transaction) {past : List Transaction} {h : History} {l' : L},
      (∀ tx ∈ past ++ txs, tx ∈ all) → Counted perform outside c l past h l' →
      Leads perform outside (addHistory c txs h) l' fun r l'' =>
        ∀ h', r = .ok h' → Counted perform outside c l (past ++ txs) h' l''
  | [], past, h, l', _, hcounted => by
    refine Leads.done fun h' hh' => ?_
    obtain rfl := Except.ok.inj hh'
    rwa [List.append_nil]
  | tx :: rest, past, h, l', hall, hcounted => by
    -- what was counted before grows by one transaction, whether or not it was seen
    have hsplit : past ++ tx :: rest = (past ++ [tx]) ++ rest := by simp
    rw [hsplit] at hall ⊢
    unfold addHistory
    by_cases hseen : h.seen.contains tx.txid = true
    · rw [if_pos hseen]
      obtain ⟨hreads, entries, htally, hknown⟩ := hcounted
      have hpass : Tally c (past ++ [tx]) entries h := by
        refine htally.pass (fun tx' htx' htxid => hequal ?_ ?_ htxid) (by simpa using hseen)
        · exact hall tx' (by simp [htx'])
        · exact hall tx (by simp)
      exact addHistory_counts hchain hequal rest hall ⟨hreads, entries, hpass, hknown⟩
    · rw [if_neg hseen]
      -- only here are queries asked, and any of them may end the whole script
      have hfee := lookUpFee_ends perform hchain c.owners tx
      refine Ends.leads_bind (hfee l') (fun answer hanswer => ?_) (by simp)
      obtain rfl := Except.ok.inj hanswer
      refine Leads.demand (fun fee hknown => ?_) (by simp)
      obtain ⟨r, l'', hhash, hreads⟩ := resolveHash_ends perform hchain tx.height l'
      refine Ends.leads_bind hhash (fun hash hresolved => ?_) (by simp)
      refine addHistory_counts hchain hequal rest hall ?_
      refine Counted.add (e := ⟨tx, fee, hash⟩) hcounted (by simpa using hseen) ?_ ?_ hreads
      · intro l₁ t
        rw [(hfee l₁).result t, hknown]
      · intro t
        rw [hhash.result t, hresolved]

/-- Where every transaction was seen before, a history changes nothing. -/
theorem addHistory_seen : ∀ {txs : List Transaction} {h : History},
    (∀ tx ∈ txs, tx.txid ∈ h.seen) → addHistory c txs h = .done h
  | [], h, _ => rfl
  | tx :: rest, h, hseen => by
    rw [List.forall_mem_cons] at hseen
    unfold addHistory
    rw [if_pos (by simpa using hseen.1)]
    exact addHistory_seen hseen.2

variable (perform) in
/-- The histories of some addresses are counted one after the other, and all of them are served. -/
theorem addHistories_counts (hchain : FixedAnswers outside chain) {all : List Transaction}
    (hequal : Set.InjOn Transaction.txid {tx | tx ∈ all}) :
    ∀ (addresses : List String) {past : List Transaction} {h : History} {l' : L},
      (∀ tx ∈ past ++ addresses.flatMap (servedHistory chain), tx ∈ all) →
      Counted perform outside c l past h l' →
      Leads perform outside (addHistories c addresses h) l' fun r l'' => ∀ h', r = .ok h' →
        Counted perform outside c l (past ++ addresses.flatMap (servedHistory chain)) h' l'' ∧
          ∀ address ∈ addresses, ∃ txs, chain (.history address) = .ok txs
  | [], past, h, l', _, hcounted => by
    refine Leads.done fun h' hh' => ⟨?_, by simp⟩
    obtain rfl := Except.ok.inj hh'
    rwa [List.flatMap_nil, List.append_nil]
  | address :: rest, past, h, l', hall, hcounted => by
    unfold addHistories
    refine Ends.leads_bind (Ends.chainQuery hchain _ l') (fun answer hanswer => ?_) (by simp)
    obtain rfl := Except.ok.inj hanswer
    refine Leads.demand (fun txs htxs => ?_) (by simp)
    have hserved : servedHistory chain address = txs := by
      unfold servedHistory
      rw [htxs]
    rw [List.flatMap_cons, hserved, ← List.append_assoc] at hall ⊢
    have hfirst := addHistory_counts perform hchain hequal txs
      (fun tx htx => hall tx (List.mem_append_left _ htx)) hcounted
    refine Leads.bind hfirst (fun h₁ l₁ hcounted₁ => ?_) (by simp)
    refine (addHistories_counts hchain hequal rest hall (hcounted₁ h₁ rfl)).mono ?_
    intro r l'' hrest h' hh'
    obtain ⟨hcounted', hothers⟩ := hrest h' hh'
    exact ⟨hcounted', List.forall_mem_cons.mpr ⟨⟨txs, htxs⟩, hothers⟩⟩

theorem addHistories_append (c : Classifier) (ys : List String) :
    ∀ (xs : List String) (h : History),
      addHistories c (xs ++ ys) h = (addHistories c xs h).bind (addHistories c ys)
  | [], h => rfl
  | x :: xs, h => by
    have hrest := addHistories_append c ys xs
    simp only [List.cons_append, addHistories, bind_eq, bind_assoc, hrest]

/-- Asked about once more, an address adds nothing. -/
theorem addHistories_again (hchain : FixedAnswers outside chain) {txs : List Transaction}
    {h : History} {address : String} (hcounted : Counted perform outside c l txs h l')
    (hserved : ∃ answer, chain (.history address) = .ok answer)
    (hmem : ∀ tx ∈ servedHistory chain address, tx ∈ txs) :
    Ends perform outside (addHistories c [address] h) l' (.ok h) l' := by
  obtain ⟨-, entries, htally, -⟩ := hcounted
  obtain ⟨answer, hanswer⟩ := hserved
  have hseen : ∀ tx ∈ answer, tx.txid ∈ h.seen := by
    intro tx htx
    refine (htally.seen tx.txid).mpr ⟨tx, hmem tx ?_, rfl⟩
    unfold servedHistory
    rwa [hanswer]
  unfold addHistories
  refine Ends.bind (Ends.chainQuery hchain (.history address) l') ?_
  rw [hanswer]
  show Ends perform outside ((addHistory c answer h).bind _) l' (.ok h) l'
  rw [addHistory_seen hseen]
  exact Ends.done h l'

end

theorem ownersOf_append_of_mem {addresses : List String} {address : String}
    (h : address ∈ addresses) : ownersOf (addresses ++ [address]) = ownersOf addresses := by
  funext a
  unfold ownersOf
  by_cases ha : a = address
  · subst ha
    simp [h]
  · simp [ha]

/-- The transactions of some of the entries of a list stand in the order of the list. -/
theorem txids_sublist {c : Classifier} (owner : OwnerKey) (entries : List HistoryEntry) :
    ((entries.filterMap fun e => (e.data c).lookup owner).map
      fun d => d.transaction.map (·.txid)).Sublist (entries.map fun e => some e.tx.txid) := by
  induction entries with
  | nil => exact .refl _
  | cons e rest ih =>
    rw [List.map_cons, List.filterMap_cons]
    cases hlookup : (e.data c).lookup owner with
    | none => exact ih.cons _
    | some d =>
      simp only [List.map_cons]
      rw [(classify_tells hlookup).summary]
      exact ih.cons_cons _

/-- **Histories count every transaction once.**  If a chain source with fixed answers serves the
histories of some addresses and equal identifiers come with equal transactions, then the lists that
a caller gets follow the first appearances of the transactions.  Each enters with its fee and the
hash of its block; an owner has a list exactly if some of them mean something to it under the
resolver of exactly these addresses, and the list holds exactly what they mean, in order.  All
records of one item are of one transaction, and no transaction has two items in a list.  An address
that is asked about once more changes nothing. -/
theorem history_counts_once {L τ : Type}
    (perform : (op : LedgerOp) → L → Except LedgerError op.Answer × L) {outside : Handler τ}
    {chain : (q : ChainQuery) → q.Answer} (hchain : FixedAnswers outside chain)
    (asset : ChainAsset) (addresses : List String)
    (hequal : Set.InjOn Transaction.txid {tx | tx ∈ addresses.flatMap (servedHistory chain)})
    {l : L} {t : τ} {m : OwnerMap (List ExtractedData)}
    (hrun : ((addressHistory asset addresses).run (amid perform outside) (l, t)).result = .ok m) :
    let c : Classifier := ⟨asset, ownersOf addresses⟩
    (∃ entries : List HistoryEntry,
      entries.map (·.tx) = (addresses.flatMap (servedHistory chain)).eraseDups ∧
      (entries.map (·.tx.txid)).Nodup ∧
      (∀ e ∈ entries, e.LookedUp perform outside c.owners l) ∧
      m.Sorted ∧
      ∀ owner ds, ((owner, ds) ∈ m ↔
          ds ≠ [] ∧ ds = entries.filterMap fun e => (e.data c).lookup owner) ∧
        ((owner, ds) ∈ m → (∀ d ∈ ds, ∃ e ∈ entries, d.Tells e.tx.txid) ∧
          (ds.map fun d => d.transaction.map (·.txid)).Nodup ∧
          (ds.map fun d => d.transaction.map (·.txid)).Sublist
            (entries.map fun e => some e.tx.txid))) ∧
      ∀ address ∈ addresses, ((addressHistory asset (addresses ++ [address])).run
        (amid perform outside) (l, t)).result = .ok m := by
  intro c
  obtain ⟨h, hh, hdata⟩ := run_bind_eq_ok.mp hrun
  obtain rfl := Except.ok.inj hdata
  obtain ⟨hcounted, hserved⟩ := addHistories_counts perform (c := c) hchain hequal
    addresses (by simp) (Counted.empty (l := l)) t h hh
  rw [List.nil_append] at hcounted
  constructor
  · obtain ⟨-, entries, htally, hknown⟩ := hcounted
    have hnodup : (entries.map (·.tx.txid)).Nodup := by
      have hmap : entries.map (·.tx.txid) = (entries.map (·.tx)).map Transaction.txid := by
        rw [List.map_map]
        rfl
      rw [hmap, htally.txs_eq]
      refine (nodup_eraseDups _).map_on fun tx htx tx' htx' heq => ?_
      exact hequal (List.mem_eraseDups.mp htx) (List.mem_eraseDups.mp htx') heq
    refine ⟨entries, htally.txs_eq, hnodup, hknown, h.data.sorted, fun owner ds =>
      ⟨htally.mem_iff owner ds, fun hmem => ?_⟩⟩
    obtain ⟨-, rfl⟩ := (htally.mem_iff owner ds).mp hmem
    refine ⟨fun d hd => ?_, ?_, txids_sublist owner entries⟩
    · obtain ⟨e, he, hlookup⟩ := List.mem_filterMap.mp hd
      exact ⟨e, he, classify_tells hlookup⟩
    · have hsome : (entries.map fun e => some e.tx.txid).Nodup := by
        have hmap := hnodup.map (Option.some_injective String)
        rwa [List.map_map] at hmap
      exact hsome.sublist (txids_sublist owner entries)
  · intro address haddress
    have hagain := addHistories_again (c := c) hchain hcounted (hserved address haddress)
      fun tx htx => List.mem_flatMap.mpr ⟨address, haddress, htx⟩
    unfold addressHistory
    rw [ownersOf_append_of_mem haddress, addHistories_append]
    refine run_bind_eq_ok.mpr ⟨h, run_bind_eq_ok.mpr ⟨h, hh, ?_⟩, rfl⟩
    exact hagain.result _

open Rehearsal

/-- A payment between the parties of the swap. -/
def payment : Transaction := ⟨"s2", 11, "", [⟨"BNB", [⟨"bob", 3⟩], [⟨"ann", 3⟩]⟩]⟩

/-- A chain source that lists the swap and the payment under both addresses. -/
def sharedWorld : World :=
  { pickyWorld with
    chain := { ChainTables.empty with
      history := [("ann", .ok [swap, payment]), ("bob", .ok [payment, swap])] } }

/-- Both transactions count once for each owner, also if an address is named twice. -/
theorem shared_transactions_count_once :
    let handler := amid Ledger.perform (forgetful sharedWorld)
    let history (addresses : List String) :=
      ((addressHistory .default addresses).run handler (.memory .empty, ())).result
    ∃ m, history ["ann", "bob"] = .ok m ∧ history ["ann", "bob", "ann"] = .ok m ∧
      (m.map fun e => (e.1, e.2.length)) =
        [(⟨.asset "BNB", "ann"⟩, 2), (⟨.asset "BNB", "bob"⟩, 2), (⟨.asset "USD", "bob"⟩, 1),
          (⟨.fee, "ann"⟩, 1), (⟨.fee, "bob"⟩, 1)] ∧
      ∀ e ∈ m, (e.2.map fun d => d.transaction.map (·.txid)).Nodup := by
  intro handler history
  have hlengths : (history ["ann", "bob"]).toOption.map (List.map fun e => (e.1, e.2.length)) =
      some [(⟨.asset "BNB", "ann"⟩, 2), (⟨.asset "BNB", "bob"⟩, 2), (⟨.asset "USD", "bob"⟩, 1),
        (⟨.fee, "ann"⟩, 1), (⟨.fee, "bob"⟩, 1)] := by
    decide +kernel
  have hall : ∀ tx ∈ [swap, payment, payment, swap], ∀ tx' ∈ [swap, payment, payment, swap],
      tx.txid = tx'.txid → tx = tx' := by
    decide
  cases hresult : history ["ann", "bob"] with
  | error x =>
    rw [hresult] at hlengths
    cases hlengths
  | ok m =>
    obtain ⟨⟨entries, -, -, -, -, hlists⟩, hagain⟩ := history_counts_once Ledger.perform
      ((forgetful_consistent sharedWorld).fixedAnswers ()) .default ["ann", "bob"]
      (fun tx htx tx' htx' => hall tx htx tx' htx') hresult
    rw [hresult] at hlengths
    refine ⟨m, rfl, hagain "ann" (by simp), Option.some.inj hlengths, ?_⟩
    rintro ⟨owner, ds⟩ he
    exact ((hlists owner ds).2 he).2.1

end WalletScan
