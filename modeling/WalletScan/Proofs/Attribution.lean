import WalletScan.Proofs.OwnerMaps

/-!
# What a group adds to a bucket

The classification goes through the groups of a transaction.  A group changes asset buckets of its
own denomination only, and the fee bucket only if it is the first one with an owned sender.

* `FirstOwned` — the source that owns a side of a group.
* `lookup_attributeGroup_asset`, `attributeGroup_fee` — what a group makes of a bucket.
* `lookup_classify_asset` — an asset bucket gathers the groups of its denomination, whatever the
  fee.
* `lookup_classify_fee` — the fee bucket goes through the bills of the groups.
* `classify_filter_asset` — apart from the fee bucket, the fee makes no difference.
* `classify_inputs_perm`, `classify_outputs_perm` — without a fee, the buckets hold the records of
  the owned sides of the groups, and nothing else.
-/

set_option autoImplicit false

namespace WalletScan

/-! ## Owned sides -/

/-- The first party of a list that has an owner is owned by a source. -/
def FirstOwned (owners : Owners) (parties : List Party) (source : String) : Prop :=
  ∃ before p after, parties = before ++ p :: after ∧ owners p.address = some source ∧
    ∀ q ∈ before, owners q.address = none

section

variable {owners : Owners} {parties : List Party} {source : String}

theorem firstOwner_eq_some_iff :
    firstOwner owners parties = some source ↔ FirstOwned owners parties source :=
  List.findSome?_eq_some_iff

theorem firstOwner_eq_none_iff :
    firstOwner owners parties = none ↔ ∀ p ∈ parties, owners p.address = none :=
  List.findSome?_eq_none_iff

theorem firstOwner_cons (p : Party) (rest : List Party) :
    firstOwner owners (p :: rest) = (owners p.address).or (firstOwner owners rest) := by
  unfold firstOwner
  rw [List.findSome?_cons]
  cases owners p.address <;> rfl

theorem firstOwner_isSome (owners : Owners) (parties : List Party) :
    (firstOwner owners parties).isSome = parties.any fun p => (owners p.address).isSome := by
  induction parties with
  | nil => rfl
  | cons p rest ih =>
    rw [firstOwner_cons, List.any_cons, ← ih]
    cases owners p.address <;> rfl

theorem exists_cons_of_firstOwner (h : firstOwner owners parties = some source) :
    ∃ p rest, parties = p :: rest := by
  cases parties with
  | nil => cases h
  | cons p rest => exact ⟨p, rest, rfl⟩

end

/-! ## What a group makes of a bucket -/

section

variable (asset : ChainAsset) (owners : Owners) (blockHash : String) (tx : Transaction)
  (g : TransferGroup)

/-- A bucket after the senders of a group were booked in it. -/
def bookSenders (d : Option ExtractedData) : ExtractedData :=
  { dataOrEmpty d with
    inputs := (dataOrEmpty d).inputs ++ asset.inputs tx blockHash g
    transaction := some (asset.summary tx blockHash g) }

/-- A bucket after the receivers of a group were booked in it. -/
def bookReceivers (d : Option ExtractedData) : ExtractedData :=
  { dataOrEmpty d with
    outputs := (dataOrEmpty d).outputs ++ asset.outputs tx blockHash g
    transaction := (dataOrEmpty d).transaction.or (some (asset.summary tx blockHash g)) }

/-- What a group makes of the bucket that a source has of its denomination. -/
def bookGroup (source : String) (d : Option ExtractedData) : Option ExtractedData :=
  let sent := if firstOwner owners g.senders = some source then
    some (bookSenders asset blockHash tx g d) else d
  if firstOwner owners g.receivers = some source then
    some (bookReceivers asset blockHash tx g sent) else sent

/-- A fee bucket after the fee was booked in it, with the first sender of a group. -/
def bookFee (amount : UInt64) (d : Option ExtractedData) : ExtractedData :=
  match g.senders.head? with
  | none => dataOrEmpty d
  | some payer =>
    { dataOrEmpty d with
      inputs := (dataOrEmpty d).inputs ++ [asset.feeInput tx blockHash amount payer]
      transaction := some (asset.feeSummary tx blockHash amount payer) }

/-- What a group makes of the fee bucket of a source, and of the mark that the fee was charged. -/
def billGroup (fee : Option UInt64) (source : String) (b : Bool × Option ExtractedData)
    (g : TransferGroup) : Bool × Option ExtractedData :=
  match firstOwner owners g.senders with
  | none => b
  | some payer =>
    if b.1 then b
    else (true, if payer = source then
      fee.elim b.2 fun amount => some (bookFee asset blockHash tx g amount b.2) else b.2)

end

section

variable {asset : ChainAsset} {owners : Owners} {blockHash : String} {fee : Option UInt64}
  {tx : Transaction} {g : TransferGroup} {a : Attribution} {data : OwnerBook ExtractedData}

/-! ## One side of a group -/

theorem attributeSenders_of_unowned (h : firstOwner owners g.senders = none) :
    attributeSenders asset owners blockHash fee tx g a = a := by
  unfold attributeSenders
  rw [h]

/-- Owned senders are booked, and the fee unless that was done before. -/
theorem attributeSenders_of_owned {payer : String} (h : firstOwner owners g.senders = some payer) :
    let booked := a.data.update ⟨.asset g.denom, payer⟩ (bookSenders asset blockHash tx g)
    attributeSenders asset owners blockHash fee tx g a =
      ⟨if a.feeCharged then booked
        else fee.elim booked fun amount => chargeFee asset tx blockHash amount g payer booked,
        true⟩ := by
  intro booked
  unfold attributeSenders
  rw [h]
  obtain ⟨data, _ | _⟩ := a
  · cases fee <;> rfl
  · rfl

theorem attributeReceivers_of_unowned (h : firstOwner owners g.receivers = none) :
    attributeReceivers asset owners blockHash tx g a = a := by
  unfold attributeReceivers
  rw [h]

theorem attributeReceivers_of_owned {taker : String}
    (h : firstOwner owners g.receivers = some taker) :
    attributeReceivers asset owners blockHash tx g a =
      { a with
        data := a.data.update ⟨.asset g.denom, taker⟩ (bookReceivers asset blockHash tx g) } := by
  unfold attributeReceivers
  rw [h]
  rfl

/-! ## Asset buckets -/

/-- The fee is booked in no asset bucket. -/
theorem lookup_chargeFee_asset (amount : UInt64) (payer denom source : String) :
    (chargeFee asset tx blockHash amount g payer data).find? ⟨.asset denom, source⟩ =
      data.find? ⟨.asset denom, source⟩ := by
  unfold chargeFee
  rw [OwnerBook.find?_update, if_neg (by simp)]

theorem lookup_attributeSenders_asset (denom source : String) :
    (attributeSenders asset owners blockHash fee tx g a).data.find? ⟨.asset denom, source⟩ =
      if g.denom = denom ∧ firstOwner owners g.senders = some source then
        some (bookSenders asset blockHash tx g (a.data.find? ⟨.asset denom, source⟩))
      else a.data.find? ⟨.asset denom, source⟩ := by
  cases howner : firstOwner owners g.senders with
  | none => simp [attributeSenders_of_unowned howner]
  | some payer =>
    have hbooked : (attributeSenders asset owners blockHash fee tx g a).data.find?
        ⟨.asset denom, source⟩ = (a.data.update ⟨.asset g.denom, payer⟩
          (bookSenders asset blockHash tx g)).find? ⟨.asset denom, source⟩ := by
      rw [attributeSenders_of_owned howner]
      split
      · rfl
      · cases fee with
        | none => rfl
        | some amount => exact lookup_chargeFee_asset amount payer denom source
    rw [hbooked, OwnerBook.find?_update]
    by_cases hkey : g.denom = denom ∧ payer = source
    · obtain ⟨rfl, rfl⟩ := hkey
      simp
    · rw [if_neg (by simpa [eq_comm] using hkey), if_neg (by simpa using hkey)]

theorem lookup_attributeReceivers_asset (denom source : String) :
    (attributeReceivers asset owners blockHash tx g a).data.find? ⟨.asset denom, source⟩ =
      if g.denom = denom ∧ firstOwner owners g.receivers = some source then
        some (bookReceivers asset blockHash tx g (a.data.find? ⟨.asset denom, source⟩))
      else a.data.find? ⟨.asset denom, source⟩ := by
  cases howner : firstOwner owners g.receivers with
  | none => simp [attributeReceivers_of_unowned howner]
  | some taker =>
    rw [attributeReceivers_of_owned howner, OwnerBook.find?_update]
    by_cases hkey : g.denom = denom ∧ taker = source
    · obtain ⟨rfl, rfl⟩ := hkey
      simp
    · rw [if_neg (by simpa [eq_comm] using hkey), if_neg (by simpa using hkey)]

/-- A group changes the buckets of its denomination only. -/
theorem lookup_attributeGroup_asset (denom source : String) :
    (attributeGroup asset owners blockHash fee tx a g).data.find? ⟨.asset denom, source⟩ =
      if g.denom = denom then
        bookGroup asset owners blockHash tx g source (a.data.find? ⟨.asset denom, source⟩)
      else a.data.find? ⟨.asset denom, source⟩ := by
  unfold attributeGroup bookGroup
  rw [lookup_attributeReceivers_asset, lookup_attributeSenders_asset]
  by_cases hdenom : g.denom = denom <;> simp [hdenom]

/-- Over a list of groups, an asset bucket gathers those of its denomination. -/
theorem lookup_foldl_asset (groups : List TransferGroup)
    (denom source : String) :
    (groups.foldl (attributeGroup asset owners blockHash fee tx) a).data.find?
        ⟨.asset denom, source⟩ =
      (groups.filter fun g => g.denom = denom).foldl
        (fun d g => bookGroup asset owners blockHash tx g source d)
        (a.data.find? ⟨.asset denom, source⟩) := by
  induction groups generalizing a with
  | nil => rfl
  | cons g rest ih =>
    rw [List.foldl_cons, ih, lookup_attributeGroup_asset]
    by_cases hdenom : g.denom = denom <;> simp [hdenom]

variable (asset owners blockHash fee tx)

/-- An asset bucket gathers the groups of its denomination, whatever the fee. -/
theorem lookup_classify_asset (denom source : String) :
    (classify asset owners blockHash fee tx).lookup ⟨.asset denom, source⟩ =
      (tx.groups.filter fun g => g.denom = denom).foldl
        (fun d g => bookGroup asset owners blockHash tx g source d) none :=
  lookup_foldl_asset tx.groups denom source

variable {asset owners blockHash fee tx}

/-! ## Fee buckets -/

theorem attributeReceivers_feeCharged :
    (attributeReceivers asset owners blockHash tx g a).feeCharged = a.feeCharged := by
  unfold attributeReceivers
  split <;> rfl

theorem lookup_attributeReceivers_fee (source : String) :
    (attributeReceivers asset owners blockHash tx g a).data.find? ⟨.fee, source⟩ =
      a.data.find? ⟨.fee, source⟩ := by
  unfold attributeReceivers
  split
  · rfl
  · rw [OwnerBook.find?_update, if_neg (by simp)]

theorem lookup_chargeFee_fee (amount : UInt64) (payer source : String) :
    (chargeFee asset tx blockHash amount g payer data).find? ⟨.fee, source⟩ =
      if payer = source then some (bookFee asset blockHash tx g amount (data.find? ⟨.fee, source⟩))
      else data.find? ⟨.fee, source⟩ := by
  unfold chargeFee
  rw [OwnerBook.find?_update]
  by_cases hpayer : payer = source
  · subst hpayer
    simp only [if_true]
    rfl
  · rw [if_neg (by simpa [eq_comm] using hpayer), if_neg hpayer]

/-- The fee bucket sees of a group only who pays, and only as long as nobody did. -/
theorem attributeGroup_fee (source : String) :
    ((attributeGroup asset owners blockHash fee tx a g).feeCharged,
      (attributeGroup asset owners blockHash fee tx a g).data.find? ⟨.fee, source⟩) =
      billGroup asset owners blockHash tx fee source
        (a.feeCharged, a.data.find? ⟨.fee, source⟩) g := by
  unfold attributeGroup billGroup
  rw [attributeReceivers_feeCharged, lookup_attributeReceivers_fee]
  cases howner : firstOwner owners g.senders with
  | none => rw [attributeSenders_of_unowned howner]
  | some payer =>
    rw [attributeSenders_of_owned howner]
    have hbooked : (a.data.update ⟨.asset g.denom, payer⟩ (bookSenders asset blockHash tx g)).find?
        ⟨.fee, source⟩ = a.data.find? ⟨.fee, source⟩ := by
      rw [OwnerBook.find?_update, if_neg (by simp)]
    cases a.feeCharged with
    | true => simp only [if_true, hbooked]
    | false =>
      cases fee with
      | none => simp [hbooked]
      | some amount => simp [lookup_chargeFee_fee, hbooked]

/-- Over a list of groups, the fee bucket goes through their bills. -/
theorem foldl_attributeGroup_fee (groups : List TransferGroup)
    (source : String) :
    ((groups.foldl (attributeGroup asset owners blockHash fee tx) a).feeCharged,
      (groups.foldl (attributeGroup asset owners blockHash fee tx) a).data.find? ⟨.fee, source⟩) =
      groups.foldl (billGroup asset owners blockHash tx fee source)
        (a.feeCharged, a.data.find? ⟨.fee, source⟩) := by
  induction groups generalizing a with
  | nil => rfl
  | cons g rest ih =>
    rw [List.foldl_cons, List.foldl_cons, ← attributeGroup_fee]
    exact ih

variable (asset owners blockHash fee tx) in
/-- The fee bucket of a source goes through the bills of the groups. -/
theorem lookup_classify_fee (source : String) :
    (classify asset owners blockHash fee tx).lookup ⟨.fee, source⟩ =
      (tx.groups.foldl (billGroup asset owners blockHash tx fee source) (false, none)).2 :=
  congrArg Prod.snd
    (foldl_attributeGroup_fee (a := ⟨.empty, false⟩) tx.groups source)

/-- Once the fee was charged, no group changes the fee bucket. -/
theorem foldl_billGroup_charged (groups : List TransferGroup) (source : String)
    (d : Option ExtractedData) :
    groups.foldl (billGroup asset owners blockHash tx fee source) (true, d) = (true, d) := by
  induction groups with
  | nil => rfl
  | cons g rest ih =>
    have hsame : billGroup asset owners blockHash tx fee source (true, d) g = (true, d) := by
      unfold billGroup
      split <;> rfl
    rw [List.foldl_cons, hsame, ih]

/-- Groups without an owned sender leave the fee bucket as it is. -/
theorem foldl_billGroup_unowned {groups : List TransferGroup}
    (h : ∀ g ∈ groups, firstOwner owners g.senders = none) (source : String)
    (b : Bool × Option ExtractedData) :
    groups.foldl (billGroup asset owners blockHash tx fee source) b = b := by
  induction groups with
  | nil => rfl
  | cons g rest ih =>
    rw [List.forall_mem_cons] at h
    have hsame : billGroup asset owners blockHash tx fee source b g = b := by
      unfold billGroup
      rw [h.1]
    rw [List.foldl_cons, hsame, ih h.2]

/-! ## The buckets together -/

/-- Without a fee, no group changes the fee bucket. -/
theorem foldl_billGroup_free (groups : List TransferGroup) (source : String)
    (b : Bool × Option ExtractedData) :
    (groups.foldl (billGroup asset owners blockHash tx none source) b).2 = b.2 := by
  induction groups generalizing b with
  | nil => rfl
  | cons g rest ih =>
    rw [List.foldl_cons, ih]
    unfold billGroup
    split
    · rfl
    · split <;> simp

variable (asset owners blockHash fee tx)

/-- Apart from the fee bucket, the fee makes no difference. -/
theorem classify_filter_asset :
    ((classify asset owners blockHash fee tx).filter fun e => !e.1.isFee) =
      classify asset owners blockHash none tx := by
  refine OwnerMap.Sorted.ext (.filter _ (classify_sorted asset owners blockHash fee tx))
    (classify_sorted asset owners blockHash none tx) fun k => ?_
  rw [lookup_filter_fst fun k : OwnerKey => !k.isFee]
  obtain ⟨denom | _, source⟩ := k
  · simp [lookup_classify_asset]
  · simp [lookup_classify_fee, foldl_billGroup_free]

/-- A map splits into the asset buckets, which are those without a fee, and the fee buckets. -/
theorem classify_parts_perm : (classify asset owners blockHash fee tx).Perm
    (classify asset owners blockHash none tx ++
      (classify asset owners blockHash fee tx).filter (·.1.isFee)) := by
  have hparts := List.filter_append_perm (fun e : OwnerKey × ExtractedData => !e.1.isFee)
    (classify asset owners blockHash fee tx)
  simp only [Bool.not_not, classify_filter_asset] at hparts
  exact hparts.symm

variable {asset owners blockHash fee tx}

/-- What the owned sides of a group yield. -/
def ownedSides {β : Type} (owners : Owners) (sent received : TransferGroup → List β)
    (g : TransferGroup) : List β :=
  (if (firstOwner owners g.senders).isSome then sent g else []) ++
    (if (firstOwner owners g.receivers).isSome then received g else [])

section

variable {β : Type} {f : ExtractedData → List β} {sent received : TransferGroup → List β}

theorem attributeGroup_flatMap_perm
    (hsent : ∀ g d, f (bookSenders asset blockHash tx g d) = d.elim [] f ++ sent g)
    (hreceived : ∀ g d, f (bookReceivers asset blockHash tx g d) = d.elim [] f ++ received g) :
    ((attributeGroup asset owners blockHash none tx a g).data.rows.flatMap fun e => f e.2).Perm
      ((a.data.rows.flatMap fun e => f e.2) ++ ownedSides owners sent received g) := by
  have hsenders : ((attributeSenders asset owners blockHash none tx g a).data.rows.flatMap
      fun e => f e.2).Perm ((a.data.rows.flatMap fun e => f e.2) ++
        if (firstOwner owners g.senders).isSome then sent g else []) := by
    cases howner : firstOwner owners g.senders with
    | none => simp [attributeSenders_of_unowned howner]
    | some payer =>
      rw [attributeSenders_of_owned howner]
      simpa using OwnerMap.flatMap_update_perm f (sent g) _ (hsent g) a.data.rows
  unfold attributeGroup ownedSides
  rw [← List.append_assoc]
  refine .trans ?_ (hsenders.append_right _)
  cases howner : firstOwner owners g.receivers with
  | none => simp [attributeReceivers_of_unowned howner]
  | some taker =>
    rw [attributeReceivers_of_owned howner]
    simpa using OwnerMap.flatMap_update_perm f (received g) _ (hreceived g) _

/-- Without a fee, the buckets hold what the owned sides of the groups yield. -/
theorem classify_flatMap_perm
    (hsent : ∀ g d, f (bookSenders asset blockHash tx g d) = d.elim [] f ++ sent g)
    (hreceived : ∀ g d, f (bookReceivers asset blockHash tx g d) = d.elim [] f ++ received g) :
    ((classify asset owners blockHash none tx).flatMap fun e => f e.2).Perm
      (tx.groups.flatMap (ownedSides owners sent received)) := by
  suffices hfold : ∀ (groups : List TransferGroup) (a : Attribution),
      ((groups.foldl (attributeGroup asset owners blockHash none tx) a).data.rows.flatMap
        fun e => f e.2).Perm ((a.data.rows.flatMap fun e => f e.2) ++
          groups.flatMap (ownedSides owners sent received)) from
    hfold tx.groups ⟨.empty, false⟩
  intro groups
  induction groups with
  | nil => simp
  | cons g rest ih =>
    intro a
    rw [List.foldl_cons, List.flatMap_cons, ← List.append_assoc]
    exact (ih _).trans ((attributeGroup_flatMap_perm hsent hreceived).append_right _)

end

variable (asset owners blockHash tx)

/-- Without a fee, the inputs of all buckets are those of the groups with an owned sender. -/
theorem classify_inputs_perm :
    ((classify asset owners blockHash none tx).flatMap fun e => e.2.inputs).Perm
      (tx.groups.flatMap fun g =>
        if (firstOwner owners g.senders).isSome then asset.inputs tx blockHash g else []) := by
  have hsent : ∀ g d, (bookSenders asset blockHash tx g d).inputs =
      (d.elim [] fun d => d.inputs) ++ asset.inputs tx blockHash g := by
    rintro g (_ | d) <;> rfl
  have hreceived : ∀ g d, (bookReceivers asset blockHash tx g d).inputs =
      (d.elim [] fun d => d.inputs) ++ [] := by
    rintro g (_ | d) <;> simp [bookReceivers, dataOrEmpty, ExtractedData.empty]
  refine (classify_flatMap_perm (f := fun d => d.inputs) hsent hreceived).trans (.of_eq ?_)
  exact congrArg (List.flatMap · tx.groups) (funext fun g => by simp [ownedSides])

/-- The outputs of all buckets are those of the groups with an owned receiver. -/
theorem classify_outputs_perm :
    ((classify asset owners blockHash none tx).flatMap fun e => e.2.outputs).Perm
      (tx.groups.flatMap fun g =>
        if (firstOwner owners g.receivers).isSome then asset.outputs tx blockHash g else []) := by
  have hsent : ∀ g d, (bookSenders asset blockHash tx g d).outputs =
      (d.elim [] fun d => d.outputs) ++ [] := by
    rintro g (_ | d) <;> simp [bookSenders, dataOrEmpty, ExtractedData.empty]
  have hreceived : ∀ g d, (bookReceivers asset blockHash tx g d).outputs =
      (d.elim [] fun d => d.outputs) ++ asset.outputs tx blockHash g := by
    rintro g (_ | d) <;> rfl
  refine (classify_flatMap_perm (f := fun d => d.outputs) hsent hreceived).trans (.of_eq ?_)
  exact congrArg (List.flatMap · tx.groups) (funext fun g => by simp [ownedSides])

end

end WalletScan
