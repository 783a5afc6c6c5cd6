import WalletScan.Proofs.Attribution

/-!
# The fee and who is charged

The fee of a transaction is charged once, to the source that `feePayer` names before the fee is
looked up.  The record names an address, though, that need not belong to that source.

* `exists_payingGroup`, `feePayer_eq_none_iff` — what the search for a payer finds.
* `classify_filter_fee`, `exists_of_mem_fee` — the fee bucket of a transaction.
* `fee_charged_to_payer` — the search and the classification agree on the payer, and apart from the
  fee bucket a fee makes no difference.
* `fee_names_first_sender` — the address in the fee bucket is owned by the source that is charged
  exactly if the first sender of the paying group is owned at all.

Specification: section 8, the single fee-bucket entry.
-/

set_option autoImplicit false

namespace WalletScan

/-! ## The paying group -/

section

variable {owners : Owners} {tx : Transaction}

theorem forall_mem_of_zipIdx {α : Type} {p : α → Prop} {l : List α} {n : Nat}
    (h : ∀ e ∈ l.zipIdx n, p e.1) : ∀ x ∈ l, p x := by
  intro x hx
  rw [← List.zipIdx_map_fst n l] at hx
  obtain ⟨e, he, rfl⟩ := List.mem_map.mp hx
  exact h e he

/-- The search for a payer stops at the first group with an owned sender. -/
theorem exists_payingGroup {payer : FeePayer} (h : feePayer owners tx = some payer) :
    ∃ before g after, tx.groups = before ++ g :: after ∧ before.length = payer.group ∧
      firstOwner owners g.senders = some payer.sourceKey ∧
      ∀ g' ∈ before, firstOwner owners g'.senders = none := by
  obtain ⟨passed, ⟨g, index⟩, later, hgroups, hpayer, hpassed⟩ := List.findSome?_eq_some_iff.mp h
  obtain ⟨source, hsource, rfl⟩ := Option.map_eq_some_iff.mp hpayer
  obtain ⟨before, rest, hsplit, rfl, hrest⟩ := List.zipIdx_eq_append_iff.mp hgroups
  obtain ⟨g', after, rfl, heq, -⟩ := List.zipIdx_eq_cons_iff.mp hrest.symm
  obtain ⟨rfl, rfl⟩ := Prod.mk.inj heq
  refine ⟨before, g, after, hsplit, (Nat.zero_add _).symm, hsource, ?_⟩
  exact forall_mem_of_zipIdx fun e he => Option.map_eq_none_iff.mp (hpassed e he)

theorem feePayer_eq_none_iff :
    feePayer owners tx = none ↔ ∀ g ∈ tx.groups, firstOwner owners g.senders = none := by
  constructor
  · intro h
    exact forall_mem_of_zipIdx fun e he =>
      Option.map_eq_none_iff.mp (List.findSome?_eq_none_iff.mp h e he)
  · intro h
    refine List.findSome?_eq_none_iff.mpr fun e he => Option.map_eq_none_iff.mpr (h e.1 ?_)
    exact List.fst_mem_of_mem_zipIdx he

end

/-! ## The fee bucket -/

section

variable (asset : ChainAsset) (owners : Owners) (blockHash : String) (fee : Option UInt64)
  (tx : Transaction)

/-- Nobody is charged if no sender is owned. -/
theorem classify_filter_fee_of_none (h : feePayer owners tx = none) :
    (classify asset owners blockHash fee tx).filter (·.1.isFee) = [] := by
  refine OwnerMap.Sorted.ext (.filter _ (classify_sorted asset owners blockHash fee tx))
    OwnerMap.sorted_nil fun k => ?_
  rw [lookup_filter_fst OwnerKey.isFee]
  obtain ⟨denom | _, source⟩ := k
  · simp
  · simp [lookup_classify_fee, foldl_billGroup_unowned (feePayer_eq_none_iff.mp h)]

/-- The data of a fee bucket that names a payer. -/
def feeData (amount : UInt64) (payer : Party) : ExtractedData :=
  ⟨[asset.feeInput tx blockHash amount payer], [],
    some (asset.feeSummary tx blockHash amount payer)⟩

/-- The source that the search finds is charged, with the first sender of the paying group. -/
theorem classify_filter_fee {payer : FeePayer} (h : feePayer owners tx = some payer) :
    ∃ g head rest, tx.groups[payer.group]? = some g ∧ g.senders = head :: rest ∧
      firstOwner owners g.senders = some payer.sourceKey ∧
      (classify asset owners blockHash fee tx).filter (·.1.isFee) =
        fee.toList.map fun amount =>
          (⟨.fee, payer.sourceKey⟩, feeData asset blockHash tx amount head) := by
  obtain ⟨before, g, after, hgroups, hindex, howner, hbefore⟩ := exists_payingGroup h
  obtain ⟨head, rest, hsenders⟩ := exists_cons_of_firstOwner howner
  refine ⟨g, head, rest, by simp [hgroups, ← hindex], hsenders, howner, ?_⟩
  have hsorted : OwnerMap.Sorted (fee.toList.map fun amount =>
      (OwnerKey.mk .fee payer.sourceKey, feeData asset blockHash tx amount head)) := by
    cases fee with
    | none => exact OwnerMap.sorted_nil
    | some amount => exact List.pairwise_singleton _ _
  refine OwnerMap.Sorted.ext (.filter _ (classify_sorted asset owners blockHash fee tx)) hsorted
    fun k => ?_
  rw [lookup_filter_fst OwnerKey.isFee]
  obtain ⟨denom | _, source⟩ := k
  · cases fee <;> simp [lookup_cons_ite]
  · rw [lookup_classify_fee, hgroups, List.foldl_append, List.foldl_cons,
      foldl_billGroup_unowned hbefore]
    have hbill : billGroup asset owners blockHash tx fee source (false, none) g =
        (true, if payer.sourceKey = source then
          fee.map fun amount => feeData asset blockHash tx amount head else none) := by
      unfold billGroup
      rw [howner]
      cases fee <;> simp [bookFee, hsenders, feeData, dataOrEmpty, ExtractedData.empty]
    rw [hbill, foldl_billGroup_charged]
    cases fee <;> simp [lookup_cons_ite, eq_comm]

variable {asset owners blockHash fee tx}

/-- What a fee bucket tells: who was charged, and the first sender of the paying group. -/
theorem exists_of_mem_fee {source : String} {d : ExtractedData}
    (h : (⟨.fee, source⟩, d) ∈ classify asset owners blockHash fee tx) :
    ∃ amount payer g first later,
      fee = some amount ∧ feePayer owners tx = some payer ∧ payer.sourceKey = source ∧
        tx.groups[payer.group]? = some g ∧ g.senders = first :: later ∧
        firstOwner owners g.senders = some source ∧
        d = feeData asset blockHash tx amount first := by
  have hmem : (⟨.fee, source⟩, d) ∈ (classify asset owners blockHash fee tx).filter (·.1.isFee) :=
    List.mem_filter.mpr ⟨h, rfl⟩
  cases hpayer : feePayer owners tx with
  | none =>
    rw [classify_filter_fee_of_none asset owners blockHash fee tx hpayer] at hmem
    cases hmem
  | some payer =>
    obtain ⟨g, first, later, hg, hsenders, howner, hfilter⟩ :=
      classify_filter_fee asset owners blockHash fee tx hpayer
    rw [hfilter] at hmem
    obtain ⟨amount, hamount, heq⟩ := List.mem_map.mp hmem
    obtain ⟨hkey, hdata⟩ := Prod.mk.inj heq
    obtain ⟨-, rfl⟩ := OwnerKey.mk.inj hkey
    exact ⟨amount, payer, g, first, later, Option.mem_toList.mp hamount, rfl, rfl, hg, hsenders,
      howner, hdata.symm⟩

end

/-- **The source that the search finds is the one that is charged.**  Whatever the groups of a
transaction, its records contain a fee bucket exactly if the search for a payer finds a source.
Then there is one, of that source, and it holds one charge of the fee in the native asset, no
output, and its summary.  The other buckets are those that the transaction yields without a fee. -/
theorem fee_charged_to_payer (asset : ChainAsset) (owners : Owners) (blockHash : String)
    (fee : UInt64) (tx : Transaction) :
    let m := classify asset owners blockHash (some fee) tx
    ((∃ e ∈ m, e.1.isFee) ↔ (feePayer owners tx).isSome) ∧
      (∀ payer, feePayer owners tx = some payer → ∃ charge summary,
        m.filter (·.1.isFee) = [(⟨.fee, payer.sourceKey⟩, ⟨[charge], [], some summary⟩)] ∧
        charge.txType = .feeCharge ∧ charge.amount = fee ∧
        charge.coin = .of asset.symbol asset.nativeDenom asset.name asset.decimals ∧
        summary.txType = .feeCharge ∧ summary.amount = some fee) ∧
      (m.filter fun e => !e.1.isFee) = classify asset owners blockHash none tx := by
  intro m
  have hnative : asset.coin asset.nativeDenom =
      .of asset.symbol asset.nativeDenom asset.name asset.decimals := by
    unfold ChainAsset.coin
    rw [if_pos rfl]
  have hexists : (∃ e ∈ m, e.1.isFee) ↔ m.filter (·.1.isFee) ≠ [] := by
    simp
  refine ⟨?_, fun payer hpayer => ?_, classify_filter_asset asset owners blockHash (some fee) tx⟩
  · rw [hexists]
    cases hpayer : feePayer owners tx with
    | none =>
      simpa using classify_filter_fee_of_none asset owners blockHash (some fee) tx hpayer
    | some payer =>
      obtain ⟨g, head, rest, -, -, -, hfilter⟩ :=
        classify_filter_fee asset owners blockHash (some fee) tx hpayer
      simp [m, hfilter]
  · obtain ⟨g, head, rest, -, -, -, hfilter⟩ :=
      classify_filter_fee asset owners blockHash (some fee) tx hpayer
    exact ⟨_, _, hfilter, rfl, rfl, hnative, rfl, rfl⟩

/-- Two addresses are owned, by different sources. -/
def watchedOwners : Owners := WatchList.owners [("ann", "a"), ("bob", "b")]

/-- A swap in which the first sender of all is a stranger. -/
def swap : Transaction :=
  ⟨"s1", 9, "swap",
    [⟨"BNB", [⟨"x", 4⟩, ⟨"ann", 6⟩], [⟨"bob", 10⟩]⟩,
      ⟨"USD", [⟨"bob", 70⟩], [⟨"y", 1⟩, ⟨"bob", 69⟩]⟩]⟩

/-- Two groups have an owned sender, and each denomination comes twice; the fee is charged once. -/
theorem swap_charged_once :
    let tx : Transaction := { swap with groups := swap.groups ++ swap.groups }
    let m := classify .default watchedOwners "h9" (some 7) tx
    feePayer watchedOwners tx = some ⟨0, "a"⟩ ∧ (m.filter (·.1.isFee)).map (·.1) = [⟨.fee, "a"⟩] ∧
      (m.filter fun e => !e.1.isFee) = classify .default watchedOwners "h9" none tx := by
  intro tx m
  have hpayer : feePayer watchedOwners tx = some ⟨0, "a"⟩ := by decide +kernel
  obtain ⟨-, hcharged, hrest⟩ := fee_charged_to_payer .default watchedOwners "h9" 7 tx
  obtain ⟨charge, summary, hfilter, -⟩ := hcharged _ hpayer
  refine ⟨hpayer, ?_, hrest⟩
  rw [hfilter]
  rfl

/-- **The charge names the first sender of the paying group, who need not be owned.**  In every fee
bucket, the address of the charge and the one in its summary are those of the first sender of the
group in which the search found a payer.  They belong to the source that is charged exactly if this
first sender belongs to anybody; otherwise that source owns a later sender of the group. -/
theorem fee_names_first_sender {asset : ChainAsset} {owners : Owners} {blockHash : String}
    {fee : Option UInt64} {tx : Transaction} {source : String} {d : ExtractedData}
    (h : (⟨.fee, source⟩, d) ∈ classify asset owners blockHash fee tx) :
    ∃ amount payer g first later charge summary,
      fee = some amount ∧ feePayer owners tx = some payer ∧ payer.sourceKey = source ∧
        tx.groups[payer.group]? = some g ∧ g.senders = first :: later ∧
        d = ⟨[charge], [], some summary⟩ ∧ charge.address = first.address ∧
        summary.senders = [Party.pair ⟨first.address, amount⟩] ∧
        (owners charge.address = some source ↔ (owners charge.address).isSome) ∧
        (owners charge.address = none → FirstOwned owners later source) := by
  obtain ⟨amount, payer, g, first, later, hamount, hpayer, hsource, hg, hsenders, howner, hd⟩ :=
    exists_of_mem_fee h
  rw [hsenders, firstOwner_cons] at howner
  refine ⟨amount, payer, g, first, later, _, _, hamount, hpayer, hsource, hg, hsenders, hd, rfl,
    rfl, ?_, fun hstranger => ?_⟩
  · show owners first.address = some source ↔ (owners first.address).isSome
    cases hfirst : owners first.address with
    | none => simp
    | some s =>
      rw [hfirst, Option.some_or] at howner
      simp [howner]
  · have hfirst : owners first.address = none := hstranger
    rw [hfirst, Option.none_or] at howner
    exact firstOwner_eq_some_iff.mp howner

/-- The fee of the swap is charged to a source, and the record names a stranger. -/
theorem swap_charge_names_stranger :
    let d := feeData .default "h9" swap 7 ⟨"x", 4⟩
    (⟨.fee, "a"⟩, d) ∈ classify .default watchedOwners "h9" (some 7) swap ∧
      watchedOwners "x" = none ∧ d.inputs.map (·.address) = ["x"] ∧
      d.transaction.map (·.senders) = some ["x:7"] ∧
      FirstOwned watchedOwners [⟨"ann", 6⟩] "a" := by
  intro d
  have hmem : (⟨.fee, "a"⟩, d) ∈ classify .default watchedOwners "h9" (some 7) swap := by
    decide +kernel
  obtain ⟨amount, payer, g, first, later, charge, summary, hfee, hpayer, -, hg, hsenders, hd,
    haddress, hpairs, -, hlater⟩ := fee_names_first_sender hmem
  have hfound : feePayer watchedOwners swap = some ⟨0, "a"⟩ := by decide +kernel
  obtain rfl : payer = ⟨0, "a"⟩ := Option.some.inj (hpayer.symm.trans hfound)
  obtain rfl := Option.some.inj hg
  obtain ⟨rfl, rfl⟩ := List.cons.inj hsenders
  obtain rfl := Option.some.inj hfee
  have hstranger : watchedOwners "x" = none := by decide
  refine ⟨hmem, hstranger, ?_, ?_, hlater (by rw [haddress]; exact hstranger)⟩
  · rw [hd, List.map_singleton, haddress]
  · rw [hd, Option.map_some, hpairs]
    rfl

end WalletScan
