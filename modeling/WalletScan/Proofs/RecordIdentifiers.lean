import Mathlib.Data.List.Flatten
import Mathlib.Data.List.Sigma
import Mathlib.Data.Set.Function
import WalletScan.Proofs.FeeCharges
import WalletScan.Proofs.JoinedTexts

/-!
# The identifiers of a transaction's records

An identifier digests the side of a record, its transaction, the chain's symbol, the denomination
and the position in its group.  That tells the records of the owned sides apart; but the record of
the fee takes the first position of the native asset, which may be taken already.

* `sidText_inj` — within a side of a transaction, a text tells the denomination and the position.
* `inputPlaces_perm`, `outputPlaces_perm` — where the records of the owned sides stand.
* `sids_nodup_iff` — the identifiers of a transaction are distinct exactly if no fee is charged or
  no sender of the native asset is owned.
-/

set_option autoImplicit false

namespace WalletScan

/-! ## Texts of identifiers -/

theorem sidText_toList (side txid symbol denom : String) (index : UInt64) :
    (sidText side txid symbol denom index).toList =
      ((side ++ "_" ++ txid ++ "_" ++ symbol ++ "_").toList ++ denom.toList) ++
        '_' :: (toString index.toNat).toList := by
  unfold sidText
  rw [String.toList_append, String.toList_append, String.toList_append, List.append_assoc]
  rfl

/-- Within a side of a transaction, a text tells the denomination and the position. -/
theorem sidText_inj {side txid symbol denom denom' : String} {index index' : UInt64}
    (h : sidText side txid symbol denom index = sidText side txid symbol denom' index') :
    denom = denom' ∧ index = index' := by
  have hlists := congrArg String.toList h
  rw [sidText_toList, sidText_toList] at hlists
  obtain ⟨hdenoms, hindices⟩ := append_cons_inj_right (underscore_not_mem_toString _)
    (underscore_not_mem_toString _) hlists
  exact ⟨String.toList_inj.mp (List.append_cancel_left hdenoms),
    UInt64.toNat_inj.mp (toString_nat_inj hindices)⟩

theorem sidText_sides_ne (txid symbol denom denom' : String) (index index' : UInt64) :
    sidText "input" txid symbol denom index ≠ sidText "output" txid symbol denom' index' := by
  intro h
  have hheads := congrArg (fun text => text.toList.head?) h
  simp [sidText] at hheads

/-! ## Places of records -/

/-- Where a record stands on its side of a transaction: its denomination and its position. -/
abbrev Place := String × UInt64

def TxInput.place (r : TxInput) : Place := (r.coin.denom, r.index)

def TxOutput.place (r : TxOutput) : Place := (r.coin.denom, r.index)

/-- The places of the parties on a side of a group. -/
def placesOf (denom : String) (parties : List Party) : List Place :=
  parties.zipIdx.map fun e => (denom, UInt64.ofNat e.2)

theorem denom_of_mem_placesOf {denom : String} {parties : List Party} {p : Place}
    (h : p ∈ placesOf denom parties) : p.1 = denom := by
  obtain ⟨e, -, rfl⟩ := List.mem_map.mp h
  rfl

/-- Positions that a word can count are told apart. -/
theorem placesOf_nodup (denom : String) {parties : List Party}
    (h : parties.length ≤ UInt64.size) : (placesOf denom parties).Nodup := by
  have hplaces : placesOf denom parties =
      (parties.zipIdx.map Prod.snd).map fun i => (denom, UInt64.ofNat i) := by
    rw [List.map_map]
    rfl
  rw [hplaces]
  refine (List.nodup_zipIdx_map_snd parties).map_on fun i hi j hj heq => ?_
  have hbound : ∀ k ∈ parties.zipIdx.map Prod.snd, k < UInt64.size := by
    intro k hk
    obtain ⟨e, he, rfl⟩ := List.mem_map.mp hk
    have hlt := List.snd_lt_of_mem_zipIdx he
    omega
  have hwords := congrArg UInt64.toNat (Prod.mk.inj heq).2
  rwa [UInt64.toNat_ofNat_of_lt' (hbound i hi), UInt64.toNat_ofNat_of_lt' (hbound j hj)] at hwords

/-- In groups of different denominations, the places of one side of each are distinct. -/
theorem flatMap_placesOf_nodup {groups : List TransferGroup} {side : TransferGroup → List Party}
    (hdenoms : (groups.map (·.denom)).Nodup) (hsizes : ∀ g ∈ groups, (side g).length ≤ UInt64.size)
    (chosen : TransferGroup → Bool) :
    (groups.flatMap fun g => if chosen g then placesOf g.denom (side g) else []).Nodup := by
  have hmem : ∀ (g : TransferGroup) (p : Place),
      p ∈ (if chosen g then placesOf g.denom (side g) else []) → p.1 = g.denom :=
    fun g p hp => denom_of_mem_placesOf (List.mem_ite_nil_right.mp hp).2
  refine List.nodup_flatMap.mpr ⟨fun g hg => ?_, ?_⟩
  · split
    · exact placesOf_nodup g.denom (hsizes g hg)
    · exact List.nodup_nil
  · refine (List.pairwise_map.mp hdenoms).imp fun hne p hp hp' => ?_
    exact hne ((hmem _ p hp).symm.trans (hmem _ p hp'))

section

variable (asset : ChainAsset) (owners : Owners) (blockHash : String) (fee : Option UInt64)
  (tx : Transaction)

/-- The places of the senders in the groups with an owned sender. -/
def sentPlaces : List Place :=
  tx.groups.flatMap fun g =>
    if (firstOwner owners g.senders).isSome then placesOf g.denom g.senders else []

/-- The places of the receivers in the groups with an owned receiver. -/
def receivedPlaces : List Place :=
  tx.groups.flatMap fun g =>
    if (firstOwner owners g.receivers).isSome then placesOf g.denom g.receivers else []

/-- The place of the fee, if it is charged. -/
def feePlaces : List Place :=
  if (feePayer owners tx).isSome then fee.toList.map fun _ => (asset.nativeDenom, 0) else []

theorem feeInputs_place :
    (((classify asset owners blockHash fee tx).filter (·.1.isFee)).flatMap
      fun e => e.2.inputs).map TxInput.place = feePlaces asset owners fee tx := by
  unfold feePlaces
  cases hpayer : feePayer owners tx with
  | none =>
    rw [classify_filter_fee_of_none asset owners blockHash fee tx hpayer]
    rfl
  | some payer =>
    obtain ⟨g, head, rest, -, -, -, hfilter⟩ :=
      classify_filter_fee asset owners blockHash fee tx hpayer
    rw [hfilter]
    cases fee <;> rfl

theorem inputs_place (g : TransferGroup) : (asset.inputs tx blockHash g).map TxInput.place =
    placesOf g.denom g.senders := by
  unfold ChainAsset.inputs placesOf
  rw [List.map_map]
  rfl

theorem outputs_place (g : TransferGroup) : (asset.outputs tx blockHash g).map TxOutput.place =
    placesOf g.denom g.receivers := by
  unfold ChainAsset.outputs placesOf
  rw [List.map_map]
  rfl

/-- The inputs stand at the places of the owned senders' sides, and the fee at its own. -/
theorem inputPlaces_perm :
    (((classify asset owners blockHash fee tx).flatMap fun e => e.2.inputs).map
      TxInput.place).Perm (sentPlaces owners tx ++ feePlaces asset owners fee tx) := by
  have hsent : (((classify asset owners blockHash none tx).flatMap fun e => e.2.inputs).map
      TxInput.place).Perm (sentPlaces owners tx) := by
    refine ((classify_inputs_perm asset owners blockHash tx).map TxInput.place).trans (.of_eq ?_)
    simp only [List.map_flatMap, apply_ite (List.map TxInput.place), List.map_nil, inputs_place]
    rfl
  have hparts := classify_parts_perm asset owners blockHash fee tx
  refine ((hparts.flatMap_right fun e => e.2.inputs).map TxInput.place).trans ?_
  rw [List.flatMap_append, List.map_append, feeInputs_place]
  exact hsent.append_right _

/-- Whatever the fee, the outputs are those of the groups with an owned receiver. -/
theorem outputs_perm :
    ((classify asset owners blockHash fee tx).flatMap fun e => e.2.outputs).Perm
      (tx.groups.flatMap fun g =>
        if (firstOwner owners g.receivers).isSome then asset.outputs tx blockHash g else []) := by
  have hfee : ((classify asset owners blockHash fee tx).filter (·.1.isFee)).flatMap
      (fun e => e.2.outputs) = [] := by
    refine List.flatMap_eq_nil_iff.mpr fun e he => ?_
    obtain ⟨source, d, hmem, rfl⟩ := OwnerMap.exists_of_mem_filter_isFee he
    obtain ⟨amount, payer, g, first, later, -, -, -, -, -, -, rfl⟩ := exists_of_mem_fee hmem
    rfl
  have hparts := (classify_parts_perm asset owners blockHash fee tx).flatMap_right
    fun e => e.2.outputs
  rw [List.flatMap_append, hfee, List.append_nil] at hparts
  exact hparts.trans (classify_outputs_perm asset owners blockHash tx)

/-- The outputs stand at the places of the owned receivers' sides. -/
theorem outputPlaces_perm :
    (((classify asset owners blockHash fee tx).flatMap fun e => e.2.outputs).map
      TxOutput.place).Perm (receivedPlaces owners tx) := by
  refine ((outputs_perm asset owners blockHash fee tx).map TxOutput.place).trans (.of_eq ?_)
  simp only [List.map_flatMap, apply_ite (List.map TxOutput.place), List.map_nil, outputs_place]
  rfl

end

/-! ## Identifiers -/

/-- The identifiers of all records. -/
def sids (m : OwnerMap ExtractedData) : List String :=
  (m.flatMap fun e => e.2.inputs).map (·.sid) ++ (m.flatMap fun e => e.2.outputs).map (·.sid)

/-- The texts that the identifiers of a transaction's records digest. -/
def sidTexts (asset : ChainAsset) (tx : Transaction) (m : OwnerMap ExtractedData) : List String :=
  (m.flatMap fun e => e.2.inputs).map
      (fun r => sidText "input" tx.txid asset.symbol r.coin.denom r.index) ++
    (m.flatMap fun e => e.2.outputs).map
      (fun r => sidText "output" tx.txid asset.symbol r.coin.denom r.index)

/-- Texts are distinct if the places on either side are. -/
theorem sidTexts_nodup_iff (asset : ChainAsset) (tx : Transaction) (m : OwnerMap ExtractedData) :
    (sidTexts asset tx m).Nodup ↔
      ((m.flatMap fun e => e.2.inputs).map TxInput.place).Nodup ∧
        ((m.flatMap fun e => e.2.outputs).map TxOutput.place).Nodup := by
  have hinj : ∀ side, Function.Injective fun p : Place =>
      sidText side tx.txid asset.symbol p.1 p.2 := fun side p p' heq =>
    Prod.ext_iff.mpr (sidText_inj heq)
  have hinputs : (m.flatMap fun e => e.2.inputs).map
      (fun r => sidText "input" tx.txid asset.symbol r.coin.denom r.index) =
      ((m.flatMap fun e => e.2.inputs).map TxInput.place).map
        fun p => sidText "input" tx.txid asset.symbol p.1 p.2 := by
    rw [List.map_map]
    rfl
  have houtputs : (m.flatMap fun e => e.2.outputs).map
      (fun r => sidText "output" tx.txid asset.symbol r.coin.denom r.index) =
      ((m.flatMap fun e => e.2.outputs).map TxOutput.place).map
        fun p => sidText "output" tx.txid asset.symbol p.1 p.2 := by
    rw [List.map_map]
    rfl
  unfold sidTexts
  rw [hinputs, houtputs, List.nodup_append, List.nodup_map_iff (hinj _),
    List.nodup_map_iff (hinj _)]
  refine ⟨fun h => ⟨h.1, h.2.1⟩, fun h => ⟨h.1, h.2, fun t ht t' ht' => ?_⟩⟩
  obtain ⟨p, -, rfl⟩ := List.mem_map.mp ht
  obtain ⟨p', -, rfl⟩ := List.mem_map.mp ht'
  exact sidText_sides_ne _ _ _ _ _ _

section

variable {asset : ChainAsset} {owners : Owners} {blockHash : String} {fee : Option UInt64}
  {tx : Transaction}

theorem sid_of_mem_inputs {r : TxInput}
    (h : r ∈ (classify asset owners blockHash fee tx).flatMap fun e => e.2.inputs) :
    r.sid = TxInput.sidOf tx.txid asset.symbol r.coin.denom r.index := by
  have hparts := classify_parts_perm asset owners blockHash fee tx
  have hmem := (hparts.flatMap_right fun e => e.2.inputs).mem_iff.mp h
  rw [List.flatMap_append, List.mem_append,
    (classify_inputs_perm asset owners blockHash tx).mem_iff] at hmem
  rcases hmem with hmem | hmem
  · obtain ⟨g, -, hr⟩ := List.mem_flatMap.mp hmem
    obtain ⟨p, -, rfl⟩ := List.mem_map.mp (List.mem_ite_nil_right.mp hr).2
    rfl
  · obtain ⟨e, he, hr⟩ := List.mem_flatMap.mp hmem
    obtain ⟨source, d, hd, rfl⟩ := OwnerMap.exists_of_mem_filter_isFee he
    obtain ⟨amount, payer, g, first, later, -, -, -, -, -, -, rfl⟩ := exists_of_mem_fee hd
    rw [List.mem_singleton.mp hr]
    rfl

theorem sid_of_mem_outputs {r : TxOutput}
    (h : r ∈ (classify asset owners blockHash fee tx).flatMap fun e => e.2.outputs) :
    r.sid = TxOutput.sidOf tx.txid asset.symbol r.coin.denom r.index := by
  obtain ⟨g, -, hr⟩ :=
    List.mem_flatMap.mp ((outputs_perm asset owners blockHash fee tx).mem_iff.mp h)
  obtain ⟨p, -, rfl⟩ := List.mem_map.mp (List.mem_ite_nil_right.mp hr).2
  rfl

/-- Every identifier digests the text of its record. -/
theorem sids_classify : sids (classify asset owners blockHash fee tx) =
    (sidTexts asset tx (classify asset owners blockHash fee tx)).map Sha256.hexOfText := by
  unfold sids sidTexts
  rw [List.map_append, List.map_map, List.map_map]
  congr 1
  · exact List.map_congr_left fun r hr => sid_of_mem_inputs hr
  · exact List.map_congr_left fun r hr => sid_of_mem_outputs hr

/-- The first place of the native asset is taken if one of its senders is owned. -/
theorem native_mem_sentPlaces_iff {native : String} : (native, 0) ∈ sentPlaces owners tx ↔
    ∃ g ∈ tx.groups, g.denom = native ∧ (firstOwner owners g.senders).isSome := by
  unfold sentPlaces
  rw [List.mem_flatMap]
  constructor
  · rintro ⟨g, hg, hmem⟩
    obtain ⟨howned, hplace⟩ := List.mem_ite_nil_right.mp hmem
    exact ⟨g, hg, (denom_of_mem_placesOf hplace).symm, howned⟩
  · rintro ⟨g, hg, rfl, howned⟩
    obtain ⟨source, hsource⟩ := Option.isSome_iff_exists.mp howned
    obtain ⟨first, later, hsenders⟩ := exists_cons_of_firstOwner hsource
    refine ⟨g, hg, List.mem_ite_nil_right.mpr ⟨howned, ?_⟩⟩
    simp [placesOf, hsenders]

theorem mem_feePlaces_iff {p : Place} : p ∈ feePlaces asset owners fee tx ↔
    p = (asset.nativeDenom, 0) ∧ fee.isSome ∧ (feePayer owners tx).isSome := by
  unfold feePlaces
  cases fee <;> cases feePayer owners tx <;> simp

theorem feePlaces_nodup : (feePlaces asset owners fee tx).Nodup := by
  unfold feePlaces
  cases fee <;> cases feePayer owners tx <;> simp

/-- The fee takes a place of its own exactly if no sender of the native asset is owned. -/
theorem inputPlaces_nodup_iff (hdenoms : (tx.groups.map (·.denom)).Nodup)
    (hsizes : ∀ g ∈ tx.groups, g.senders.length ≤ UInt64.size) :
    (sentPlaces owners tx ++ feePlaces asset owners fee tx).Nodup ↔
      (fee.isSome → ∀ g ∈ tx.groups, g.denom = asset.nativeDenom →
        firstOwner owners g.senders = none) := by
  have hsent : (sentPlaces owners tx).Nodup := flatMap_placesOf_nodup hdenoms hsizes _
  rw [List.nodup_append]
  constructor
  · rintro ⟨-, -, hapart⟩ hfee g hg hdenom
    cases howner : firstOwner owners g.senders with
    | none => rfl
    | some source =>
      -- an owned sender pays, so that the fee stands at the place of the first sender
      have hpayer : (feePayer owners tx).isSome := by
        rw [← Option.ne_none_iff_isSome]
        intro hnone
        rw [feePayer_eq_none_iff.mp hnone g hg] at howner
        cases howner
      have htaken : (asset.nativeDenom, 0) ∈ sentPlaces owners tx :=
        native_mem_sentPlaces_iff.mpr ⟨g, hg, hdenom, by simp [howner]⟩
      exact absurd rfl (hapart _ htaken _ (mem_feePlaces_iff.mpr ⟨rfl, hfee, hpayer⟩))
  · intro hfree
    refine ⟨hsent, feePlaces_nodup, fun p hp p' hp' heq => ?_⟩
    obtain ⟨rfl, hfee, -⟩ := mem_feePlaces_iff.mp hp'
    subst heq
    obtain ⟨g, hg, hdenom, howned⟩ := native_mem_sentPlaces_iff.mp hp
    rw [hfree hfee g hg hdenom] at howned
    cases howned

theorem nodup_map_iff_of_injOn {α β : Type} {f : α → β} {l : List α}
    (h : Set.InjOn f {x | x ∈ l}) : (l.map f).Nodup ↔ l.Nodup :=
  ⟨List.Nodup.of_map f, fun hl => hl.map_on fun _ hx _ hy heq => h hx hy heq⟩

/-- As far as SHA-256 keeps texts apart, identifiers are distinct exactly if the places are. -/
theorem sids_classify_nodup_iff (hdenoms : (tx.groups.map (·.denom)).Nodup)
    (hsizes : ∀ g ∈ tx.groups,
      g.senders.length ≤ UInt64.size ∧ g.receivers.length ≤ UInt64.size)
    (hapart : Set.InjOn Sha256.hexOfText
      {text | text ∈ sidTexts asset tx (classify asset owners blockHash fee tx)}) :
    (sids (classify asset owners blockHash fee tx)).Nodup ↔
      (fee.isSome → ∀ g ∈ tx.groups, g.denom = asset.nativeDenom →
        firstOwner owners g.senders = none) := by
  have hreceived : (receivedPlaces owners tx).Nodup :=
    flatMap_placesOf_nodup hdenoms (fun g hg => (hsizes g hg).2) _
  rw [sids_classify, nodup_map_iff_of_injOn hapart, sidTexts_nodup_iff,
    (inputPlaces_perm asset owners blockHash fee tx).nodup_iff,
    (outputPlaces_perm asset owners blockHash fee tx).nodup_iff,
    inputPlaces_nodup_iff hdenoms fun g hg => (hsizes g hg).1]
  exact and_iff_left hreceived

theorem sidTexts_filter_subset (p : OwnerKey × ExtractedData → Bool)
    (m : OwnerMap ExtractedData) : sidTexts asset tx (m.filter p) ⊆ sidTexts asset tx m := by
  have hsublist : (m.filter p).Sublist m := List.filter_sublist
  exact (((hsublist.flatMap _).map _).append ((hsublist.flatMap _).map _)).subset

end

/-- **The identifiers of a transaction are distinct, but for the one of the fee.**  In a transaction
with one group for each denomination, no longer than positions can count, and as far as SHA-256
keeps the texts of its records apart: the identifiers of all inputs and outputs in the asset buckets
are distinct.  The record of a fee has the identifier of the first sender in the native asset.  So
all identifiers are distinct exactly if no fee is given or no sender of the native asset is
owned. -/
theorem sids_nodup_iff (asset : ChainAsset) (owners : Owners) (blockHash : String)
    (fee : Option UInt64) {tx : Transaction} (hdenoms : (tx.groups.map (·.denom)).Nodup)
    (hsizes : ∀ g ∈ tx.groups,
      g.senders.length ≤ UInt64.size ∧ g.receivers.length ≤ UInt64.size)
    (hapart : Set.InjOn Sha256.hexOfText
      {text | text ∈ sidTexts asset tx (classify asset owners blockHash fee tx)}) :
    let m := classify asset owners blockHash fee tx
    (sids (m.filter fun e => !e.1.isFee)).Nodup ∧
      (∀ e ∈ m, e.1.isFee →
        e.2.inputs.map (·.sid) = [TxInput.sidOf tx.txid asset.symbol asset.nativeDenom 0]) ∧
      ((sids m).Nodup ↔ (fee.isSome → ∀ g ∈ tx.groups, g.denom = asset.nativeDenom →
        ∀ p ∈ g.senders, owners p.address = none)) := by
  intro m
  refine ⟨?_, fun e he hfee => ?_, ?_⟩
  · have hassets : (m.filter fun e => !e.1.isFee) = classify asset owners blockHash none tx :=
      classify_filter_asset asset owners blockHash fee tx
    have hfewer : Set.InjOn Sha256.hexOfText
        {text | text ∈ sidTexts asset tx (classify asset owners blockHash none tx)} := by
      refine hapart.mono fun text htext => ?_
      rw [← classify_filter_asset asset owners blockHash fee tx] at htext
      exact sidTexts_filter_subset _ _ htext
    rw [hassets, sids_classify_nodup_iff hdenoms hsizes hfewer]
    exact fun hnone => absurd hnone (by simp)
  · obtain ⟨source, d, hmem, rfl⟩ :=
      OwnerMap.exists_of_mem_filter_isFee (List.mem_filter.mpr ⟨he, hfee⟩)
    obtain ⟨amount, payer, g, first, later, -, -, -, -, -, -, rfl⟩ := exists_of_mem_fee hmem
    rfl
  · rw [sids_classify_nodup_iff hdenoms hsizes hapart]
    simp only [firstOwner_eq_none_iff]

/-- In the swap, the fee takes the identifier of its first sender. -/
theorem swap_sids_clash :
    let m := classify .default watchedOwners "h9" (some 7) swap
    (swap.groups.map (·.denom)).Nodup ∧ ¬ (sids m).Nodup ∧
      (sids (m.filter fun e => !e.1.isFee)).Nodup := by
  intro m
  have hdenoms : (swap.groups.map (·.denom)).Nodup := by decide
  have hsizes : ∀ g ∈ swap.groups,
      g.senders.length ≤ UInt64.size ∧ g.receivers.length ≤ UInt64.size := by
    decide
  obtain ⟨hassets, -, hiff⟩ := sids_nodup_iff .default watchedOwners "h9" (some 7) hdenoms hsizes
    (injOn_hexOfText_of_mem (fun _ ht => ht) (by decide +kernel))
  refine ⟨hdenoms, fun hnodup => ?_, hassets⟩
  have hstranger := hiff.mp hnodup rfl _ List.mem_cons_self rfl ⟨"ann", 6⟩ (by simp)
  exact absurd hstranger (by decide)

end WalletScan
