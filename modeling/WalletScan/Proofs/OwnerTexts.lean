import Mathlib.Data.List.Nodup
import WalletScan.Proofs.Classification
import WalletScan.Proofs.JoinedTexts

/-!
# Owners by their texts

An owner is written as `denomination:source`, and the fee bucket as `fee:source`.  Neither part is
escaped, so two owners can have one text.  Here is when.

* `OwnerKey.render_eq_iff` — two owners have one text if their labels and sources agree, or if the
  text can be split at two of its colons.
* `Opens`, `mem_keys_classify_iff` — the buckets of a transaction, told from the transaction.
* `owner_texts_nodup_iff` — when the texts of these buckets tell them apart.
-/

set_option autoImplicit false

namespace WalletScan

/-! ## Texts of owners -/

/-- What stands for a bucket in the text of an owner. -/
def Bucket.label : Bucket → String
  | .asset denom => denom
  | .fee => "fee"

namespace OwnerKey

/-- The text of the first owner reads as that of the second, split at a later colon. -/
def Overlaps (k k' : OwnerKey) : Prop :=
  ∃ middle, k'.bucket.label = k.bucket.label ++ ":" ++ middle ∧
    k.sourceKey = middle ++ ":" ++ k'.sourceKey

theorem render_eq (k : OwnerKey) : k.render = k.bucket.label ++ ":" ++ k.sourceKey := by
  obtain ⟨denom | _, source⟩ := k <;> rfl

theorem toList_render (k : OwnerKey) :
    k.render.toList = k.bucket.label.toList ++ ':' :: k.sourceKey.toList := by
  simp [render_eq]

/-- An overlap in terms of characters. -/
theorem overlaps_iff {k k' : OwnerKey} :
    k.Overlaps k' ↔ ∃ middle, k'.bucket.label.toList = k.bucket.label.toList ++ ':' :: middle ∧
      k.sourceKey.toList = middle ++ ':' :: k'.sourceKey.toList := by
  constructor
  · rintro ⟨middle, hlabel, hsource⟩
    exact ⟨middle.toList, by simp [hlabel], by simp [hsource]⟩
  · rintro ⟨middle, hlabel, hsource⟩
    exact ⟨String.ofList middle, String.toList_inj.mp (by simp [hlabel]),
      String.toList_inj.mp (by simp [hsource])⟩

/-- Two owners have one text if their labels and sources agree, or if the text can be split at two
of its colons. -/
theorem render_eq_iff {k k' : OwnerKey} :
    k.render = k'.render ↔
      (k.bucket.label = k'.bucket.label ∧ k.sourceKey = k'.sourceKey) ∨
        k.Overlaps k' ∨ k'.Overlaps k := by
  rw [← String.toList_inj, toList_render, toList_render, append_cons_eq_append_cons_iff,
    String.toList_inj, String.toList_inj, overlaps_iff, overlaps_iff]

theorem Overlaps.colon_mem_source {k k' : OwnerKey} (h : k.Overlaps k') :
    ':' ∈ k.sourceKey.toList := by
  obtain ⟨middle, -, hsource⟩ := overlaps_iff.mp h
  simp [hsource]

/-- A text is split at a later colon only where a denomination has a colon. -/
theorem Overlaps.exists_denom {k k' : OwnerKey} (h : k.Overlaps k') :
    ∃ denom, k'.bucket = .asset denom ∧ ':' ∈ denom.toList := by
  obtain ⟨middle, hlabel, -⟩ := overlaps_iff.mp h
  have hcolon : ':' ∈ k'.bucket.label.toList := by simp [hlabel]
  cases hbucket : k'.bucket with
  | asset denom => exact ⟨denom, rfl, by rwa [hbucket] at hcolon⟩
  | fee =>
    rw [hbucket] at hcolon
    exact absurd hcolon (by decide)

end OwnerKey

/-- The fee bucket is labelled as the denomination `fee` is; all other labels differ. -/
theorem Bucket.label_eq_iff {b b' : Bucket} :
    b.label = b'.label ↔
      b = b' ∨ (b = .fee ∧ b' = .asset "fee") ∨ (b = .asset "fee" ∧ b' = .fee) := by
  cases b <;> cases b' <;> simp [label, eq_comm]

/-! ## The buckets of a transaction -/

/-- A transaction opens a bucket: the source owns a side of a group of the denomination, or it pays
the fee that is given. -/
def Opens (owners : Owners) (fee : Option UInt64) (tx : Transaction) : OwnerKey → Prop
  | ⟨.asset denom, source⟩ => ∃ g ∈ tx.groups, g.denom = denom ∧
      (FirstOwned owners g.senders source ∨ FirstOwned owners g.receivers source)
  | ⟨.fee, source⟩ => fee.isSome ∧ ∃ payer, feePayer owners tx = some payer ∧
      payer.sourceKey = source

section

variable (asset : ChainAsset) (owners : Owners) (blockHash : String) (fee : Option UInt64)
  (tx : Transaction)

theorem mem_feeKeys_iff (source : String) :
    ⟨.fee, source⟩ ∈ (classify asset owners blockHash fee tx).map (·.1) ↔
      Opens owners fee tx ⟨.fee, source⟩ := by
  have hfilter : ⟨.fee, source⟩ ∈ (classify asset owners blockHash fee tx).map (·.1) ↔
      ∃ d, (⟨.fee, source⟩, d) ∈ (classify asset owners blockHash fee tx).filter (·.1.isFee) := by
    simp
  rw [hfilter]
  cases hpayer : feePayer owners tx with
  | none => simp [Opens, hpayer, classify_filter_fee_of_none asset owners blockHash fee tx hpayer]
  | some payer =>
    obtain ⟨g, head, rest, -, -, -, heq⟩ :=
      classify_filter_fee asset owners blockHash fee tx hpayer
    rw [heq]
    cases fee <;> simp [Opens, hpayer, eq_comm]

/-- The classification has the buckets that the transaction opens. -/
theorem mem_keys_classify_iff (k : OwnerKey) :
    k ∈ (classify asset owners blockHash fee tx).map (·.1) ↔ Opens owners fee tx k := by
  obtain ⟨denom | _, source⟩ := k
  · exact mem_assetKeys_iff asset owners blockHash tx fee denom source
  · exact mem_feeKeys_iff asset owners blockHash fee tx source

end

section

variable {owners : Owners} {fee : Option UInt64} {tx : Transaction} {k : OwnerKey}

theorem FirstOwned.exists_owner {parties : List Party} {source : String}
    (h : FirstOwned owners parties source) : ∃ address, owners address = some source := by
  obtain ⟨before, p, after, -, howner, -⟩ := h
  exact ⟨p.address, howner⟩

/-- A bucket is opened for a source that owns an address. -/
theorem Opens.exists_owner (h : Opens owners fee tx k) :
    ∃ address, owners address = some k.sourceKey := by
  obtain ⟨denom | _, source⟩ := k
  · obtain ⟨g, -, -, hsent | hreceived⟩ := h
    · exact hsent.exists_owner
    · exact hreceived.exists_owner
  · obtain ⟨-, payer, hpayer, rfl⟩ := h
    obtain ⟨before, g, after, -, -, howner, -⟩ := exists_payingGroup hpayer
    exact (firstOwner_eq_some_iff.mp howner).exists_owner

theorem Opens.denom_mem {denom source : String} (h : Opens owners fee tx ⟨.asset denom, source⟩) :
    denom ∈ tx.groups.map (·.denom) := by
  obtain ⟨g, hg, rfl, -⟩ := h
  exact List.mem_map_of_mem hg

end

/-! ## Telling owners apart -/

section

variable {owners : Owners} {fee : Option UInt64} {tx : Transaction}

/-- The source that is charged the fee has no bucket of a denomination named like the fee bucket,
and no two buckets overlap. -/
structure Distinguished (owners : Owners) (fee : Option UInt64) (tx : Transaction) : Prop where
  fee_apart : ∀ source, Opens owners fee tx ⟨.fee, source⟩ →
    ¬ Opens owners fee tx ⟨.asset "fee", source⟩
  no_overlap : ∀ k k', Opens owners fee tx k → Opens owners fee tx k' → ¬ k.Overlaps k'

theorem Distinguished.eq_of_render_eq (h : Distinguished owners fee tx) {k k' : OwnerKey}
    (hk : Opens owners fee tx k) (hk' : Opens owners fee tx k') (heq : k.render = k'.render) :
    k = k' := by
  obtain ⟨bucket, source⟩ := k
  obtain ⟨bucket', source'⟩ := k'
  rcases OwnerKey.render_eq_iff.mp heq with ⟨hlabel, hsource⟩ | hover | hover
  · obtain rfl : source = source' := hsource
    rcases Bucket.label_eq_iff.mp hlabel with hbucket | ⟨hfee, hasset⟩ | ⟨hasset, hfee⟩
    · rw [OwnerKey.mk.injEq]
      exact ⟨hbucket, rfl⟩
    · obtain rfl : bucket = .fee := hfee
      obtain rfl : bucket' = .asset "fee" := hasset
      exact absurd hk' (h.fee_apart source hk)
    · obtain rfl : bucket = .asset "fee" := hasset
      obtain rfl : bucket' = .fee := hfee
      exact absurd hk (h.fee_apart source hk')
  · exact absurd hover (h.no_overlap _ _ hk hk')
  · exact absurd hover (h.no_overlap _ _ hk' hk)

theorem distinguished_iff :
    Distinguished owners fee tx ↔ ∀ k, Opens owners fee tx k → ∀ k', Opens owners fee tx k' →
      k.render = k'.render → k = k' := by
  constructor
  · exact fun h k hk k' hk' => h.eq_of_render_eq hk hk'
  · intro hinj
    refine ⟨fun source hfee hasset => ?_, fun k k' hk hk' hover => ?_⟩
    · have heq : OwnerKey.mk .fee source = ⟨.asset "fee", source⟩ := hinj _ hfee _ hasset rfl
      cases heq
    · have heq := hinj k hk k' hk' (OwnerKey.render_eq_iff.mpr (.inr (.inl hover)))
      subst heq
      obtain ⟨middle, -, hsource⟩ := OwnerKey.overlaps_iff.mp hover
      have hlength := congrArg List.length hsource
      simp only [List.length_append, List.length_cons] at hlength
      omega

/-- Ordinary names tell all buckets apart. -/
theorem distinguished_of_names (hfee : fee = none ∨ "fee" ∉ tx.groups.map (·.denom))
    (hcolon : (∀ denom ∈ tx.groups.map (·.denom), ':' ∉ denom.toList) ∨
      ∀ address source, owners address = some source → ':' ∉ source.toList) :
    Distinguished owners fee tx := by
  refine ⟨fun source hcharged hasset => ?_, fun k k' hk hk' hover => ?_⟩
  · rcases hfee with rfl | hdenom
    · cases hcharged.1
    · exact hdenom hasset.denom_mem
  · rcases hcolon with hdenoms | hsources
    · obtain ⟨denom, hbucket, hmem⟩ := hover.exists_denom
      obtain ⟨bucket, source⟩ := k'
      obtain rfl : bucket = .asset denom := hbucket
      exact hdenoms denom hk'.denom_mem hmem
    · obtain ⟨address, howner⟩ := hk.exists_owner
      exact hsources address k.sourceKey howner hover.colon_mem_source

end

/-- **Which buckets the texts of owners tell apart.**  Whatever the transaction, the owners and the
fee, the records have exactly the buckets that the transaction opens.  Their texts are distinct if
and only if the source that is charged the fee has no bucket of a denomination called `fee`, and no
bucket's text reads as that of another one, split at a later colon.  In particular they are distinct
if no denomination is called `fee`, or no fee is given, and if no denomination, or no source, has a
colon. -/
theorem owner_texts_nodup_iff (asset : ChainAsset) (owners : Owners) (blockHash : String)
    (fee : Option UInt64) (tx : Transaction) :
    let m := classify asset owners blockHash fee tx
    (∀ k, k ∈ m.map (·.1) ↔ Opens owners fee tx k) ∧
      ((m.map (·.1.render)).Nodup ↔ Distinguished owners fee tx) ∧
      ((fee = none ∨ "fee" ∉ tx.groups.map (·.denom)) →
        ((∀ denom ∈ tx.groups.map (·.denom), ':' ∉ denom.toList) ∨
          ∀ address source, owners address = some source → ':' ∉ source.toList) →
        (m.map (·.1.render)).Nodup) := by
  intro m
  have hkeys := mem_keys_classify_iff asset owners blockHash fee tx
  have hnodup : (m.map (·.1.render)).Nodup ↔ Distinguished owners fee tx := by
    have hmap : m.map (·.1.render) = (m.map (·.1)).map OwnerKey.render := by simp
    rw [hmap, List.nodup_map_iff_inj_on (classify_sorted asset owners blockHash fee tx).keys_nodup,
      distinguished_iff]
    simp only [hkeys]
  exact ⟨hkeys, hnodup, fun hfee hcolon => hnodup.mpr (distinguished_of_names hfee hcolon)⟩

/-- The swap moves no denomination called `fee`, and no name in it has a colon. -/
theorem swap_owner_texts :
    let m := classify .default watchedOwners "h9" (some 7) swap
    m.map (·.1.render) = ["BNB:a", "BNB:b", "USD:b", "fee:a"] ∧ (m.map (·.1.render)).Nodup := by
  intro m
  obtain ⟨-, -, hnames⟩ := owner_texts_nodup_iff .default watchedOwners "h9" (some 7) swap
  exact ⟨by decide +kernel, hnames (.inr (by decide)) (.inl (by decide))⟩

/-- Two sources, one of which has a colon in its name. -/
def colonOwners : Owners := WatchList.owners [("ann", "a"), ("bob", "b:a")]

/-- Movements of a denomination called `fee`, and of one with a colon in its name. -/
def colonSwap : Transaction :=
  ⟨"c1", 9, "",
    [⟨"fee", [⟨"ann", 5⟩], [⟨"x", 5⟩]⟩,
      ⟨"USD:b", [⟨"ann", 6⟩], [⟨"x", 6⟩]⟩,
      ⟨"USD", [⟨"bob", 7⟩], [⟨"x", 7⟩]⟩]⟩

/-- Four buckets have two texts. -/
theorem colonSwap_owner_texts :
    let m := classify .default colonOwners "h9" (some 3) colonSwap
    m.map (·.1) =
        [⟨.asset "USD", "b:a"⟩, ⟨.asset "USD:b", "a"⟩, ⟨.asset "fee", "a"⟩, ⟨.fee, "a"⟩] ∧
      m.map (·.1.render) = ["USD:b:a", "USD:b:a", "fee:a", "fee:a"] ∧
      ¬ (m.map (·.1.render)).Nodup := by
  intro m
  have htexts : m.map (·.1.render) = ["USD:b:a", "USD:b:a", "fee:a", "fee:a"] := by
    decide +kernel
  refine ⟨by decide +kernel, htexts, ?_⟩
  rw [htexts]
  decide

end WalletScan
