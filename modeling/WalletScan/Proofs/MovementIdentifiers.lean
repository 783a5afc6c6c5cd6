import Mathlib.Data.List.Nodup
import Mathlib.Data.Set.Function
import WalletScan.Proofs.Classification
import WalletScan.Proofs.JoinedTexts

/-!
# The identifiers of movements

The identifier of a summary digests the transaction, the contract of the coin, the kind of movement
and the parties.  The parts before the parties cannot hold the separator, and the parties depend on
the group only; so an identifier names the bucket that the summary stands in, whoever owns it.

* `underscore_not_mem_hexOfText` — a digest in hexadecimal holds no separator.
* `wxIdText_inj` — within a transaction, a text tells the contract and the kind of movement.
* `exists_summary`, `summary_eq_of_bucket_eq` — every bucket has a summary, and the buckets of one
  name have the same.
* `wxId_eq_iff` — identifiers agree exactly if denomination and kind do.
-/

set_option autoImplicit false

namespace WalletScan

/-! ## Texts of identifiers -/

theorem underscore_ne_hexDigit {n : Nat} (h : n < 16) : hexDigit n ≠ '_' := by
  revert n
  decide

/-- A digest in hexadecimal holds no separator. -/
theorem underscore_not_mem_hexOfText (text : String) : '_' ∉ (Sha256.hexOfText text).toList := by
  unfold Sha256.hexOfText hexOfBytes
  rw [String.toList_ofList, List.mem_flatMap]
  rintro ⟨b, -, hb⟩
  have hbound := b.toNat_lt
  rw [List.mem_cons, List.mem_singleton] at hb
  rcases hb with hhigh | hlow
  · exact underscore_ne_hexDigit (by omega) hhigh.symm
  · exact underscore_ne_hexDigit (by omega) hlow.symm

theorem TxType.code_inj {k k' : TxType} (h : k.code = k'.code) : k = k' := by
  cases k <;> cases k' <;> first | rfl | cases h

theorem wxIdText_toList (s : TransactionSummary) :
    s.wxIdText.toList = s.txid.toList ++ '_' :: (s.coin.contractId.toList ++
      '_' :: ((toString s.txType.code).toList ++ '_' ::
        (",".intercalate s.senders ++ "_" ++ ",".intercalate s.receivers).toList)) := by
  unfold TransactionSummary.wxIdText
  simp only [String.toList_append, List.append_assoc]
  rfl

/-- Within a transaction, a text tells the contract and the kind of movement. -/
theorem wxIdText_inj {s s' : TransactionSummary} (htxid : s.txid = s'.txid)
    (hcontract : '_' ∉ s.coin.contractId.toList) (hcontract' : '_' ∉ s'.coin.contractId.toList)
    (h : s.wxIdText = s'.wxIdText) :
    s.coin.contractId = s'.coin.contractId ∧ s.txType = s'.txType := by
  have hlists := congrArg String.toList h
  rw [wxIdText_toList, wxIdText_toList, htxid] at hlists
  obtain ⟨-, hrest⟩ := List.cons.inj (List.append_cancel_left hlists)
  obtain ⟨hcontracts, hrest⟩ := append_cons_inj_left hcontract hcontract' hrest
  obtain ⟨hcodes, -⟩ := append_cons_inj_left (underscore_not_mem_toString _)
    (underscore_not_mem_toString _) hrest
  exact ⟨String.toList_inj.mp hcontracts, TxType.code_inj (toString_nat_inj hcodes)⟩

/-! ## The summary of a bucket -/

/-- The text that a contract identifier digests. -/
def contractText (symbol denom : String) : String := symbol ++ "_" ++ denom

theorem contractText_inj {symbol denom denom' : String}
    (h : contractText symbol denom = contractText symbol denom') : denom = denom' := by
  have hlists := congrArg String.toList h
  unfold contractText at hlists
  simp only [String.toList_append] at hlists
  exact String.toList_inj.mp (List.append_cancel_left hlists)

/-- What a bucket holds: the denomination and the kind of its movements. -/
def Bucket.movement (native : String) : Bucket → String × TxType
  | .asset denom => (denom, .transfer)
  | .fee => (native, .feeCharge)

theorem Bucket.movement_inj {native : String} {b b' : Bucket}
    (h : b.movement native = b'.movement native) : b = b' := by
  cases b with
  | asset denom =>
    cases b' with
    | asset denom' => rw [(Prod.mk.inj h).1]
    | fee => cases (Prod.mk.inj h).2
  | fee =>
    cases b' with
    | asset denom' => cases (Prod.mk.inj h).2
    | fee => rfl

/-- The denomination and the kind of the movement that a summary tells of. -/
def TransactionSummary.movement (s : TransactionSummary) : String × TxType :=
  (s.coin.denom, s.txType)

/-- The summaries of all buckets. -/
def summaries (m : OwnerMap ExtractedData) : List TransactionSummary :=
  m.filterMap fun e => e.2.transaction

/-- A summary of a movement of a transaction, under its computed identifiers. -/
structure TransactionSummary.Identified (asset : ChainAsset) (tx : Transaction)
    (movement : String × TxType) (s : TransactionSummary) : Prop where
  txid : s.txid = tx.txid
  wxId : s.wxId = Sha256.hexOfText s.wxIdText
  contractId : s.coin.contractId = Sha256.hexOfText (contractText asset.symbol s.coin.denom)
  movement_eq : s.movement = movement

section

variable {asset : ChainAsset} {owners : Owners} {blockHash : String} {fee : Option UInt64}
  {tx : Transaction}

/-- The asset buckets of a denomination have the summary of its group. -/
theorem asset_summary (hdenoms : (tx.groups.map (·.denom)).Nodup) {denom source : String}
    {d : ExtractedData}
    (h : (⟨.asset denom, source⟩, d) ∈ classify asset owners blockHash fee tx) :
    ∃ g ∈ tx.groups, g.denom = denom ∧ d.transaction = some (asset.summary tx blockHash g) := by
  obtain ⟨g, hg, rfl, -⟩ := (mem_assetKeys_iff asset owners blockHash _ fee denom source).mp
    (List.mem_map_of_mem h)
  have hlookup := (classify_sorted asset owners blockHash fee tx).mem_iff_lookup.mp h
  rw [lookup_classify_of_mem asset owners blockHash hdenoms hg, bookGroup_none] at hlookup
  obtain ⟨-, hd⟩ := Option.ite_none_right_eq_some.mp hlookup
  obtain rfl := Option.some.inj hd
  exact ⟨g, hg, rfl, rfl⟩

/-- A summary over a coin of the asset is identified once its identifier is computed. -/
theorem TransactionSummary.identified_withWxId {s : TransactionSummary} {denom : String}
    {kind : TxType} (htxid : s.txid = tx.txid) (hcoin : s.coin = asset.coin denom)
    (hkind : s.txType = kind) : s.withWxId.Identified asset tx (denom, kind) := by
  refine ⟨htxid, ?_, ?_, ?_⟩
  · unfold withWxId
    rfl
  · show s.coin.contractId = Sha256.hexOfText (contractText asset.symbol s.coin.denom)
    rw [hcoin]
    unfold ChainAsset.coin Coin.of Coin.contractIdOf contractText
    rfl
  · show (s.coin.denom, s.txType) = (denom, kind)
    rw [hcoin, hkind]
    rfl

theorem summary_identified (g : TransferGroup) :
    (asset.summary tx blockHash g).Identified asset tx (g.denom, .transfer) := by
  unfold ChainAsset.summary
  apply TransactionSummary.identified_withWxId <;> rfl

theorem feeSummary_identified (amount : UInt64) (payer : Party) :
    (asset.feeSummary tx blockHash amount payer).Identified asset tx
      (asset.nativeDenom, .feeCharge) := by
  unfold ChainAsset.feeSummary
  apply TransactionSummary.identified_withWxId <;> rfl

theorem exists_summary (hdenoms : (tx.groups.map (·.denom)).Nodup)
    {e : OwnerKey × ExtractedData} (h : e ∈ classify asset owners blockHash fee tx) :
    ∃ s, e.2.transaction = some s ∧
      s.Identified asset tx (e.1.bucket.movement asset.nativeDenom) := by
  obtain ⟨⟨denom | _, source⟩, d⟩ := e
  · obtain ⟨g, -, rfl, hd⟩ := asset_summary hdenoms h
    exact ⟨_, hd, summary_identified g⟩
  · obtain ⟨amount, payer, g, first, later, -, -, -, -, -, -, rfl⟩ := exists_of_mem_fee h
    exact ⟨_, rfl, feeSummary_identified amount first⟩

/-- Buckets of one name have the same summary, whoever owns them. -/
theorem summary_eq_of_bucket_eq (hdenoms : (tx.groups.map (·.denom)).Nodup)
    {e e' : OwnerKey × ExtractedData} (h : e ∈ classify asset owners blockHash fee tx)
    (h' : e' ∈ classify asset owners blockHash fee tx) (hbucket : e.1.bucket = e'.1.bucket) :
    e.2.transaction = e'.2.transaction := by
  obtain ⟨⟨bucket, source⟩, d⟩ := e
  obtain ⟨⟨bucket', source'⟩, d'⟩ := e'
  obtain rfl : bucket = bucket' := hbucket
  cases bucket with
  | asset denom =>
    obtain ⟨g, hg, hdenom, hd⟩ := asset_summary hdenoms h
    obtain ⟨g', hg', hdenom', hd'⟩ := asset_summary hdenoms h'
    obtain rfl := eq_of_denom_eq hdenoms hg hg' (hdenom'.trans hdenom.symm)
    exact hd.trans hd'.symm
  | fee =>
    obtain ⟨amount, payer, g, first, later, hfee, hpayer, -, hg, hsenders, -, rfl⟩ :=
      exists_of_mem_fee h
    obtain ⟨amount', payer', g', first', later', hfee', hpayer', -, hg', hsenders', -, rfl⟩ :=
      exists_of_mem_fee h'
    obtain rfl := Option.some.inj (hfee.symm.trans hfee')
    obtain rfl := Option.some.inj (hpayer.symm.trans hpayer')
    obtain rfl := Option.some.inj (hg.symm.trans hg')
    obtain rfl := (List.cons.inj (hsenders.symm.trans hsenders')).1
    rfl

theorem TransactionSummary.Identified.underscore_not_mem {movement : String × TxType}
    {s : TransactionSummary} (h : s.Identified asset tx movement) :
    '_' ∉ s.coin.contractId.toList := by
  rw [h.contractId]
  exact underscore_not_mem_hexOfText _

/-- As far as SHA-256 keeps the texts of two summaries apart, an identifier tells the movement. -/
theorem TransactionSummary.Identified.movement_eq_of_wxId_eq {movement movement' : String × TxType}
    {s s' : TransactionSummary} (h : s.Identified asset tx movement)
    (h' : s'.Identified asset tx movement')
    (hapart : Sha256.hexOfText s.wxIdText = Sha256.hexOfText s'.wxIdText →
      s.wxIdText = s'.wxIdText)
    (hcontracts : Sha256.hexOfText (contractText asset.symbol s.coin.denom) =
        Sha256.hexOfText (contractText asset.symbol s'.coin.denom) →
      contractText asset.symbol s.coin.denom = contractText asset.symbol s'.coin.denom)
    (hid : s.wxId = s'.wxId) : movement = movement' := by
  rw [h.wxId, h'.wxId] at hid
  obtain ⟨hcontract, hkind⟩ := wxIdText_inj (h.txid.trans h'.txid.symm) h.underscore_not_mem
    h'.underscore_not_mem (hapart hid)
  rw [h.contractId, h'.contractId] at hcontract
  rw [← h.movement_eq, ← h'.movement_eq]
  exact Prod.ext (contractText_inj (hcontracts hcontract)) hkind

end

/-- **The identifier of a summary names the movement.**  In a transaction with one group for each
denomination, and as far as SHA-256 keeps apart the texts of its summaries and those of their
contracts: every bucket has a summary of its denomination and kind, and two summaries have the same
identifier exactly if their denomination and kind agree.  So the views that the sender and the
receiver have of a group share one identifier; those of different groups, and of a transfer and the
charge of the fee, never do. -/
theorem wxId_eq_iff (asset : ChainAsset) (owners : Owners) (blockHash : String)
    (fee : Option UInt64) {tx : Transaction} (hdenoms : (tx.groups.map (·.denom)).Nodup)
    (hapart : Set.InjOn Sha256.hexOfText
      {text | ∃ s ∈ summaries (classify asset owners blockHash fee tx), text = s.wxIdText})
    (hcontracts : Set.InjOn Sha256.hexOfText
      {text | ∃ s ∈ summaries (classify asset owners blockHash fee tx),
        text = contractText asset.symbol s.coin.denom}) :
    let m := classify asset owners blockHash fee tx
    (∀ s ∈ summaries m, ∀ s' ∈ summaries m,
      s.wxId = s'.wxId ↔ s.coin.denom = s'.coin.denom ∧ s.txType = s'.txType) ∧
      (∀ e ∈ m, ∃ s, e.2.transaction = some s ∧
        (s.coin.denom, s.txType) = e.1.bucket.movement asset.nativeDenom) ∧
      ∀ e ∈ m, ∀ e' ∈ m, ∀ s s', e.2.transaction = some s → e'.2.transaction = some s' →
        (s.wxId = s'.wxId ↔ e.1.bucket = e'.1.bucket) := by
  intro m
  have hbuckets : ∀ e ∈ m, ∀ e' ∈ m, ∀ s s', e.2.transaction = some s →
      e'.2.transaction = some s' → (s.wxId = s'.wxId ↔ e.1.bucket = e'.1.bucket) := by
    intro e he e' he' s s' hs hs'
    constructor
    · intro hid
      obtain ⟨_, hsome, hof⟩ := exists_summary hdenoms he
      obtain rfl := Option.some.inj (hs.symm.trans hsome)
      obtain ⟨_, hsome', hof'⟩ := exists_summary hdenoms he'
      obtain rfl := Option.some.inj (hs'.symm.trans hsome')
      have hmem : s ∈ summaries m := List.mem_filterMap.mpr ⟨e, he, hs⟩
      have hmem' : s' ∈ summaries m := List.mem_filterMap.mpr ⟨e', he', hs'⟩
      exact Bucket.movement_inj (hof.movement_eq_of_wxId_eq hof'
        (hapart ⟨s, hmem, rfl⟩ ⟨s', hmem', rfl⟩) (hcontracts ⟨s, hmem, rfl⟩ ⟨s', hmem', rfl⟩) hid)
    · intro hbucket
      have hsame := summary_eq_of_bucket_eq hdenoms he he' hbucket
      rw [hs, hs'] at hsame
      rw [Option.some.inj hsame]
  have hkinds : ∀ e ∈ m, ∃ s, e.2.transaction = some s ∧
      (s.coin.denom, s.txType) = e.1.bucket.movement asset.nativeDenom := by
    intro e he
    obtain ⟨s, hs, hof⟩ := exists_summary hdenoms he
    exact ⟨s, hs, hof.movement_eq⟩
  refine ⟨?_, hkinds, hbuckets⟩
  intro s hs s' hs'
  obtain ⟨e, he, hsome⟩ := List.mem_filterMap.mp hs
  obtain ⟨e', he', hsome'⟩ := List.mem_filterMap.mp hs'
  obtain ⟨_, h, hmovement⟩ := hkinds e he
  obtain rfl := Option.some.inj (hsome.symm.trans h)
  obtain ⟨_, h', hmovement'⟩ := hkinds e' he'
  obtain rfl := Option.some.inj (hsome'.symm.trans h')
  rw [hbuckets e he e' he' s s' hsome hsome', ← Prod.mk.injEq, hmovement, hmovement']
  exact ⟨fun hbucket => by rw [hbucket], Bucket.movement_inj⟩

/-- In the swap, both sources see the first group under one identifier; the second group and the
charge of the fee have identifiers of their own. -/
theorem swap_identifiers :
    (swap.groups.map (·.denom)).Nodup ∧
      ∃ sent received other charge,
        summaries (classify .default watchedOwners "h9" (some 7) swap) =
          [sent, received, other, charge] ∧
        sent.wxId = received.wxId ∧ sent.wxId ≠ other.wxId ∧ sent.wxId ≠ charge.wxId ∧
          other.wxId ≠ charge.wxId := by
  have hdenoms : (swap.groups.map (·.denom)).Nodup := by decide
  have hmovements : (summaries (classify .default watchedOwners "h9" (some 7) swap)).map
      TransactionSummary.movement =
        [("BNB", .transfer), ("BNB", .transfer), ("USD", .transfer), ("BNB", .feeCharge)] := by
    decide +kernel
  obtain ⟨hiff, -, -⟩ := wxId_eq_iff .default watchedOwners "h9" (some 7) hdenoms
    (injOn_hexOfText (by decide +kernel)) (injOn_hexOfText (by decide +kernel))
  obtain ⟨sent, rest, hl, hsent, hrest⟩ := List.map_eq_cons_iff.mp hmovements
  obtain ⟨received, rest, rfl, hreceived, hrest⟩ := List.map_eq_cons_iff.mp hrest
  obtain ⟨other, rest, rfl, hother, hrest⟩ := List.map_eq_cons_iff.mp hrest
  obtain ⟨charge, rest, rfl, hcharge, hrest⟩ := List.map_eq_cons_iff.mp hrest
  obtain rfl := List.map_eq_nil_iff.mp hrest
  rw [hl] at hiff
  refine ⟨hdenoms, sent, received, other, charge, hl, ?_, ?_, ?_, ?_⟩
  · rw [hiff sent (by simp) received (by simp), ← Prod.mk.injEq]
    exact hsent.trans hreceived.symm
  · rw [Ne, hiff sent (by simp) other (by simp), ← Prod.mk.injEq]
    exact ne_of_eq_of_ne hsent (ne_of_ne_of_eq (by decide) hother.symm)
  · rw [Ne, hiff sent (by simp) charge (by simp), ← Prod.mk.injEq]
    exact ne_of_eq_of_ne hsent (ne_of_ne_of_eq (by decide) hcharge.symm)
  · rw [Ne, hiff other (by simp) charge (by simp), ← Prod.mk.injEq]
    exact ne_of_eq_of_ne hother (ne_of_ne_of_eq (by decide) hcharge.symm)

end WalletScan
