import WalletScan.Proofs.FeeCharges

/-!
# What a transaction means for its owners

The classification builds its buckets step by step.  Here they are described one by one, from the
transaction alone.

* `Share` — what the bucket of a source says about the group of its denomination.
* `lookup_classify_of_mem` — in a transaction with one group for each denomination, the buckets of a
  denomination come from its group.
* `classify_by_groups` — which buckets there are and what they hold; every party of an owned side is
  listed once.
-/

set_option autoImplicit false

namespace WalletScan

/-! ## Shares -/

/-- What the records of a group have in common. -/
structure Origin where
  txid : String
  coin : Coin
  blockHeight : UInt64
  blockHash : String
  memo : String

def TransferGroup.origin (asset : ChainAsset) (blockHash : String) (tx : Transaction)
    (g : TransferGroup) : Origin :=
  ⟨tx.txid, asset.coin g.denom, tx.height, blockHash, tx.memo⟩

def TxInput.origin (r : TxInput) : Origin :=
  ⟨r.txid, r.coin, r.blockHeight, r.blockHash, r.memo⟩

def TxOutput.origin (r : TxOutput) : Origin :=
  ⟨r.txid, r.coin, r.blockHeight, r.blockHash, r.memo⟩

def TransactionSummary.origin (s : TransactionSummary) : Origin :=
  ⟨s.txid, s.coin, s.blockHeight, s.blockHash, s.memo⟩

/-- An entry of a side: its denomination, its position and the party. -/
structure SideEntry where
  denom : String
  index : UInt64
  party : Party

/-- The entries of a side in order, counted from zero. -/
def sideEntries (denom : String) (parties : List Party) : List SideEntry :=
  parties.zipIdx.map fun (p, i) => ⟨denom, UInt64.ofNat i, p⟩

def TxInput.entry (r : TxInput) : SideEntry := ⟨r.coin.denom, r.index, ⟨r.address, r.amount⟩⟩

def TxOutput.entry (r : TxOutput) : SideEntry := ⟨r.coin.denom, r.index, ⟨r.address, r.amount⟩⟩

/-- What the bucket of a source says about the group of its denomination. -/
structure Share (asset : ChainAsset) (owners : Owners) (blockHash : String) (tx : Transaction)
    (g : TransferGroup) (source : String) (d : ExtractedData) : Prop where
  sent : FirstOwned owners g.senders source →
    d.inputs.map TxInput.entry = sideEntries g.denom g.senders
  unsent : ¬ FirstOwned owners g.senders source → d.inputs = []
  received : FirstOwned owners g.receivers source →
    d.outputs.map TxOutput.entry = sideEntries g.denom g.receivers
  unreceived : ¬ FirstOwned owners g.receivers source → d.outputs = []
  inputs_origin : ∀ r ∈ d.inputs, r.txType = .transfer ∧ r.origin = g.origin asset blockHash tx
  outputs_origin : ∀ r ∈ d.outputs, r.origin = g.origin asset blockHash tx
  summary : ∃ s, d.transaction = some s ∧ s.txType = .transfer ∧
    s.senders = g.senders.map Party.pair ∧ s.receivers = g.receivers.map Party.pair ∧
    s.origin = g.origin asset blockHash tx

section

variable {asset : ChainAsset} {owners : Owners} {blockHash : String} {tx : Transaction}
  {g : TransferGroup}

theorem entries_inputs : (asset.inputs tx blockHash g).map TxInput.entry =
    sideEntries g.denom g.senders := by
  unfold ChainAsset.inputs sideEntries
  rw [List.map_map]
  rfl

theorem entries_outputs : (asset.outputs tx blockHash g).map TxOutput.entry =
    sideEntries g.denom g.receivers := by
  unfold ChainAsset.outputs sideEntries
  rw [List.map_map]
  rfl

theorem origin_inputs : ∀ r ∈ asset.inputs tx blockHash g,
    r.txType = .transfer ∧ r.origin = g.origin asset blockHash tx := by
  intro r hr
  obtain ⟨p, -, rfl⟩ := List.mem_map.mp hr
  exact ⟨rfl, rfl⟩

theorem origin_outputs : ∀ r ∈ asset.outputs tx blockHash g,
    r.origin = g.origin asset blockHash tx := by
  intro r hr
  obtain ⟨p, -, rfl⟩ := List.mem_map.mp hr
  rfl

/-- A group opens a bucket for the sources of its sides, and what it books there is their share. -/
theorem bookGroup_none (source : String) :
    bookGroup asset owners blockHash tx g source none =
      if firstOwner owners g.senders = some source ∨
          firstOwner owners g.receivers = some source then
        some
          { inputs := if firstOwner owners g.senders = some source then
              asset.inputs tx blockHash g else []
            outputs := if firstOwner owners g.receivers = some source then
              asset.outputs tx blockHash g else []
            transaction := some (asset.summary tx blockHash g) }
      else none := by
  unfold bookGroup
  by_cases hsent : firstOwner owners g.senders = some source <;>
    by_cases hreceived : firstOwner owners g.receivers = some source <;>
      simp [hsent, hreceived, bookSenders, bookReceivers, dataOrEmpty, ExtractedData.empty]

theorem share_of_bookGroup {source : String} {d : ExtractedData}
    (h : bookGroup asset owners blockHash tx g source none = some d) :
    Share asset owners blockHash tx g source d := by
  rw [bookGroup_none] at h
  obtain ⟨-, hd⟩ := Option.ite_none_right_eq_some.mp h
  obtain rfl := Option.some.inj hd
  refine ⟨fun hsent => ?_, fun hunsent => ?_, fun hreceived => ?_, fun hunreceived => ?_, ?_, ?_,
    asset.summary tx blockHash g, rfl, rfl, rfl, rfl, rfl⟩
  · rw [if_pos (firstOwner_eq_some_iff.mpr hsent), entries_inputs]
  · exact if_neg fun hsent => hunsent (firstOwner_eq_some_iff.mp hsent)
  · rw [if_pos (firstOwner_eq_some_iff.mpr hreceived), entries_outputs]
  · exact if_neg fun hreceived => hunreceived (firstOwner_eq_some_iff.mp hreceived)
  · intro r hr
    exact origin_inputs r (List.mem_ite_nil_right.mp hr).2
  · intro r hr
    exact origin_outputs r (List.mem_ite_nil_right.mp hr).2

/-! ## One group for each denomination -/

/-- Where no two groups share a denomination, a group is alone with its own. -/
theorem filter_denom_of_mem {groups : List TransferGroup} (h : (groups.map (·.denom)).Nodup)
    (hg : g ∈ groups) : (groups.filter fun g' => g'.denom = g.denom) = [g] := by
  induction groups with
  | nil => cases hg
  | cons head rest ih =>
    obtain ⟨hhead, hrest⟩ := List.nodup_cons.mp h
    rcases List.mem_cons.mp hg with rfl | hg
    · have hothers : (rest.filter fun g' => g'.denom = g.denom) = [] := by
        refine List.filter_eq_nil_iff.mpr fun g' hg' heq => hhead ?_
        exact List.mem_map.mpr ⟨g', hg', of_decide_eq_true heq⟩
      simp [hothers]
    · have hne : head.denom ≠ g.denom := fun heq => hhead (List.mem_map.mpr ⟨g, hg, heq.symm⟩)
      simp [hne, ih hrest hg]

theorem eq_of_denom_eq (h : (tx.groups.map (·.denom)).Nodup) (hg : g ∈ tx.groups)
    {g' : TransferGroup} (hg' : g' ∈ tx.groups) (hdenom : g'.denom = g.denom) : g' = g := by
  have hmem : g' ∈ tx.groups.filter fun g' => g'.denom = g.denom :=
    List.mem_filter.mpr ⟨hg', decide_eq_true hdenom⟩
  rw [filter_denom_of_mem h hg] at hmem
  exact List.mem_singleton.mp hmem

variable (asset owners blockHash) in
/-- The buckets of a denomination come from its group. -/
theorem lookup_classify_of_mem (hdenoms : (tx.groups.map (·.denom)).Nodup) (hg : g ∈ tx.groups)
    (fee : Option UInt64) (source : String) :
    (classify asset owners blockHash fee tx).lookup ⟨.asset g.denom, source⟩ =
      bookGroup asset owners blockHash tx g source none := by
  rw [lookup_classify_asset, filter_denom_of_mem hdenoms hg]
  rfl

end

/-! ## Which buckets there are -/

section

variable {asset : ChainAsset} {owners : Owners} {blockHash : String} {tx : Transaction}

/-- A group opens a bucket for the sources of its sides, and closes none. -/
theorem isSome_bookGroup {g : TransferGroup} {source : String} {d : Option ExtractedData} :
    (bookGroup asset owners blockHash tx g source d).isSome ↔ d.isSome ∨
      (FirstOwned owners g.senders source ∨ FirstOwned owners g.receivers source) := by
  rw [← firstOwner_eq_some_iff, ← firstOwner_eq_some_iff]
  unfold bookGroup
  by_cases hsent : firstOwner owners g.senders = some source <;>
    by_cases hreceived : firstOwner owners g.receivers = some source <;>
      simp [hsent, hreceived]

theorem isSome_foldl_bookGroup {groups : List TransferGroup} {source : String}
    {d : Option ExtractedData} :
    (groups.foldl (fun d g => bookGroup asset owners blockHash tx g source d) d).isSome ↔
      d.isSome ∨ ∃ g ∈ groups,
        FirstOwned owners g.senders source ∨ FirstOwned owners g.receivers source := by
  induction groups generalizing d with
  | nil => simp
  | cons g rest ih =>
    simp only [List.foldl_cons, ih, isSome_bookGroup, List.mem_cons, exists_eq_or_imp, or_assoc]

variable (asset owners blockHash tx) in
/-- The asset buckets of a transaction are those of the sources that own a side of a group. -/
theorem mem_assetKeys_iff (fee : Option UInt64) (denom source : String) :
    ⟨.asset denom, source⟩ ∈ (classify asset owners blockHash fee tx).map (·.1) ↔
      ∃ g ∈ tx.groups, g.denom = denom ∧
        (FirstOwned owners g.senders source ∨ FirstOwned owners g.receivers source) := by
  rw [← isSome_lookup_iff_mem_keys, lookup_classify_asset, isSome_foldl_bookGroup]
  simp [and_assoc]

end

/-! ## All buckets -/

section

variable (asset : ChainAsset) (owners : Owners) (blockHash : String) (fee : Option UInt64)
  (tx : Transaction)

/-- The inputs outside the fee bucket are the entries of the senders' sides that are owned. -/
theorem inputEntries_perm :
    ((((classify asset owners blockHash fee tx).filter fun e => !e.1.isFee).flatMap
      fun e => e.2.inputs).map TxInput.entry).Perm
      (tx.groups.flatMap fun g =>
        if g.senders.any fun p => (owners p.address).isSome then sideEntries g.denom g.senders
        else []) := by
  rw [classify_filter_asset]
  refine ((classify_inputs_perm asset owners blockHash tx).map TxInput.entry).trans (.of_eq ?_)
  simp only [List.map_flatMap, apply_ite (List.map TxInput.entry), List.map_nil, entries_inputs,
    firstOwner_isSome]

theorem outputEntries_perm :
    ((((classify asset owners blockHash fee tx).filter fun e => !e.1.isFee).flatMap
      fun e => e.2.outputs).map TxOutput.entry).Perm
      (tx.groups.flatMap fun g =>
        if g.receivers.any fun p => (owners p.address).isSome then sideEntries g.denom g.receivers
        else []) := by
  rw [classify_filter_asset]
  refine ((classify_outputs_perm asset owners blockHash tx).map TxOutput.entry).trans (.of_eq ?_)
  simp only [List.map_flatMap, apply_ite (List.map TxOutput.entry), List.map_nil, entries_outputs,
    firstOwner_isSome]

end

section

variable {asset : ChainAsset} {owners : Owners} {blockHash : String} {fee : Option UInt64}
  {tx : Transaction}

/-- A bucket of a denomination holds the share of its source in the group. -/
theorem share_of_mem (hdenoms : (tx.groups.map (·.denom)).Nodup) {g : TransferGroup}
    (hg : g ∈ tx.groups) {source : String} {d : ExtractedData}
    (h : (⟨.asset g.denom, source⟩, d) ∈ classify asset owners blockHash fee tx) :
    Share asset owners blockHash tx g source d := by
  have hlookup := (classify_sorted asset owners blockHash fee tx).mem_iff_lookup.mp h
  rw [lookup_classify_of_mem asset owners blockHash hdenoms hg] at hlookup
  exact share_of_bookGroup hlookup

theorem not_isEmpty_of_mem (hdenoms : (tx.groups.map (·.denom)).Nodup)
    {e : OwnerKey × ExtractedData}
    (h : e ∈ classify asset owners blockHash fee tx) : e.2.isEmpty = false := by
  obtain ⟨⟨denom | _, source⟩, d⟩ := e
  · obtain ⟨g, hg, rfl, -⟩ := (mem_assetKeys_iff asset owners blockHash tx fee denom source).mp
      (List.mem_map_of_mem h)
    obtain ⟨s, hs, -⟩ := (share_of_mem hdenoms hg h).summary
    simp [ExtractedData.isEmpty, hs]
  · obtain ⟨amount, payer, g, first, later, -, -, -, -, -, -, rfl⟩ := exists_of_mem_fee h
    rfl

theorem classify_eq_nil
    (h : ∀ g ∈ tx.groups, ∀ p ∈ g.senders ++ g.receivers, owners p.address = none) :
    classify asset owners blockHash fee tx = [] := by
  refine List.eq_nil_iff_forall_not_mem.mpr ?_
  rintro ⟨⟨denom | _, source⟩, d⟩ hmem
  · obtain ⟨g, hg, -, howned⟩ := (mem_assetKeys_iff asset owners blockHash tx fee denom
      source).mp (List.mem_map_of_mem hmem)
    obtain ⟨p, hp, hsome⟩ : ∃ p ∈ g.senders ++ g.receivers, owners p.address = some source := by
      rcases howned with ⟨before, p, after, hparties, hsome, -⟩ | ⟨before, p, after, hparties,
        hsome, -⟩ <;> exact ⟨p, by simp [hparties], hsome⟩
    rw [h g hg p hp] at hsome
    cases hsome
  · obtain ⟨amount, payer, g, first, later, -, -, -, hg, -, howner, -⟩ := exists_of_mem_fee hmem
    have hunowned : firstOwner owners g.senders = none := firstOwner_eq_none_iff.mpr fun p hp =>
      h g (List.mem_of_getElem? hg) p (List.mem_append_left _ hp)
    rw [hunowned] at howner
    cases howner

end

/-- **The records of a transaction are those of its groups.**  In a transaction with one group for
each denomination, whatever the fee: every key comes once, and there is an asset bucket exactly for
each source of the first owned sender or receiver of a group.  It lists the senders if they are the
source's, the receivers if they are, and sums the group up.  So every party of an owned side is
listed exactly once, no bucket is empty, and without an owned address there is none. -/
theorem classify_by_groups (asset : ChainAsset) (owners : Owners) (blockHash : String)
    (fee : Option UInt64) {tx : Transaction} (hdenoms : (tx.groups.map (·.denom)).Nodup) :
    let m := classify asset owners blockHash fee tx
    let assets := m.filter fun e => !e.1.isFee
    (m.map (·.1)).Nodup ∧
      (∀ denom source, ⟨.asset denom, source⟩ ∈ m.map (·.1) ↔ ∃ g ∈ tx.groups, g.denom = denom ∧
        (FirstOwned owners g.senders source ∨ FirstOwned owners g.receivers source)) ∧
      (∀ g ∈ tx.groups, ∀ source d, (⟨.asset g.denom, source⟩, d) ∈ m →
        Share asset owners blockHash tx g source d) ∧
      ((assets.flatMap fun e => e.2.inputs).map TxInput.entry).Perm (tx.groups.flatMap fun g =>
        if g.senders.any fun p => (owners p.address).isSome then sideEntries g.denom g.senders
        else []) ∧
      ((assets.flatMap fun e => e.2.outputs).map TxOutput.entry).Perm (tx.groups.flatMap fun g =>
        if g.receivers.any fun p => (owners p.address).isSome then sideEntries g.denom g.receivers
        else []) ∧
      (∀ e ∈ m, e.2.isEmpty = false) ∧
      ((∀ g ∈ tx.groups, ∀ p ∈ g.senders ++ g.receivers, owners p.address = none) → m = []) :=
  ⟨(classify_sorted asset owners blockHash fee tx).keys_nodup,
    mem_assetKeys_iff asset owners blockHash tx fee,
    fun _ hg _ _ => share_of_mem hdenoms hg,
    inputEntries_perm asset owners blockHash fee tx,
    outputEntries_perm asset owners blockHash fee tx,
    fun _ => not_isEmpty_of_mem hdenoms,
    classify_eq_nil⟩

/-- Of the swap, one source has a side of the first group only and the other a side of the first and
both sides of the second. -/
theorem swap_buckets :
    let m := classify .default watchedOwners "h9" (some 7) swap
    (swap.groups.map (·.denom)).Nodup ∧
      m.map (·.1) =
        [⟨.asset "BNB", "a"⟩, ⟨.asset "BNB", "b"⟩, ⟨.asset "USD", "b"⟩, ⟨.fee, "a"⟩] ∧
      ∃ d, (⟨.asset "USD", "b"⟩, d) ∈ m ∧
        d.inputs.map TxInput.entry = [⟨"USD", 0, ⟨"bob", 70⟩⟩] ∧
        d.outputs.map TxOutput.entry = [⟨"USD", 0, ⟨"y", 1⟩⟩, ⟨"USD", 1, ⟨"bob", 69⟩⟩] := by
  intro m
  have hdenoms : (swap.groups.map (·.denom)).Nodup := by decide
  have hkeys : m.map (·.1) =
      [⟨.asset "BNB", "a"⟩, ⟨.asset "BNB", "b"⟩, ⟨.asset "USD", "b"⟩, ⟨.fee, "a"⟩] := by
    decide +kernel
  obtain ⟨-, -, hshares, -⟩ := classify_by_groups .default watchedOwners "h9" (some 7) hdenoms
  obtain ⟨⟨key, d⟩, hmem, rfl⟩ : ∃ e ∈ m, e.1 = ⟨.asset "USD", "b"⟩ :=
    List.mem_map.mp (by simp [hkeys])
  have hshare := hshares ⟨"USD", [⟨"bob", 70⟩], [⟨"y", 1⟩, ⟨"bob", 69⟩]⟩ (by simp [swap]) "b" d hmem
  refine ⟨hdenoms, hkeys, d, hmem, hshare.sent ?_, hshare.received ?_⟩
  · exact ⟨[], _, [], rfl, by decide, by simp⟩
  · exact ⟨[⟨"y", 1⟩], _, [], rfl, by decide, by decide⟩

end WalletScan
