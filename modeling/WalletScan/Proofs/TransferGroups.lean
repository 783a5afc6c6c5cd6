import Mathlib.Algebra.GroupWithZero.Nat
import WalletScan.Gateway.Message
import WalletScan.Proofs.DistinctEntries

/-!
# Grouping the coins of a reply

A reply lists the coins of each party; the transaction that it stands for gathers them by
denomination.  Coin after coin, the groups are the denominations seen so far, each with the parties
that moved it.

* `updateGroup_eraseDups` — what one more coin makes of such groups.
* `updateGroup_flatMap_perm` — a coin adds one entry, whatever the groups.
* `reply_transaction` — the groups of a reply in closed form.
* `reply_grouped` — nothing is lost, doubled or reordered.
-/

set_option autoImplicit false

namespace WalletScan

/-! ## Groups as a function of their denominations -/

section

variable {denom : String} {change : TransferGroup → TransferGroup}

/-- Among different denominations, a change reaches the group of its own only. -/
theorem updateGroup_map_of_mem {denoms : List String} {f f' : String → TransferGroup}
    (hdenom : ∀ d, (f d).denom = d) (hchange : change (f denom) = f' denom)
    (hothers : ∀ d, d ≠ denom → f' d = f d) (hnodup : denoms.Nodup) (hmem : denom ∈ denoms) :
    updateGroup denom change (denoms.map f) = denoms.map f' := by
  induction denoms with
  | nil => cases hmem
  | cons d rest ih =>
    obtain ⟨hd, hrest⟩ := List.nodup_cons.mp hnodup
    rw [List.map_cons, List.map_cons]
    unfold updateGroup
    by_cases heq : d = denom
    · subst heq
      have hsame : rest.map f' = rest.map f :=
        List.map_congr_left fun d' hd' => hothers d' (ne_of_mem_of_not_mem hd' hd)
      rw [if_pos (hdenom d), hchange, hsame]
    · have htail : denom ∈ rest := (List.mem_cons.mp hmem).resolve_left (Ne.symm heq)
      rw [if_neg (by rwa [hdenom]), ih hrest htail, hothers d heq]

/-- A denomination without a group gets one at the end. -/
theorem updateGroup_map_of_not_mem {denoms : List String} {f : String → TransferGroup}
    (hdenom : ∀ d, (f d).denom = d) (hmem : denom ∉ denoms) :
    updateGroup denom change (denoms.map f) = denoms.map f ++ [change ⟨denom, [], []⟩] := by
  induction denoms with
  | nil => rfl
  | cons d rest ih =>
    obtain ⟨hd, hrest⟩ := not_or.mp (mt List.mem_cons.mpr hmem)
    rw [List.map_cons]
    unfold updateGroup
    rw [if_neg (by rw [hdenom]; exact Ne.symm hd), ih hrest, List.cons_append]

/-- What one more move makes of the groups of the denominations seen so far. -/
theorem updateGroup_eraseDups {seen : List String} {f f' : String → TransferGroup}
    (hdenom : ∀ d, (f d).denom = d) (hchange : change (f denom) = f' denom)
    (hothers : ∀ d, d ≠ denom → f' d = f d) (hnew : denom ∉ seen → f denom = ⟨denom, [], []⟩) :
    updateGroup denom change (seen.eraseDups.map f) =
      ((seen ++ [denom]).eraseDups).map f' := by
  rw [eraseDups_append_singleton]
  split
  · rename_i hmem
    exact updateGroup_map_of_mem hdenom hchange hothers (nodup_eraseDups seen)
      (List.mem_eraseDups.mpr hmem)
  · rename_i hmem
    have hsame : seen.eraseDups.map f' = seen.eraseDups.map f :=
      List.map_congr_left fun d hd =>
        hothers d (ne_of_mem_of_not_mem (List.mem_eraseDups.mp hd) hmem)
    rw [updateGroup_map_of_not_mem hdenom (mt List.mem_eraseDups.mp hmem), ← hnew hmem, hchange,
      List.map_append, hsame, List.map_singleton]

/-- If a change adds entries to whichever group it reaches, that is all the groups gain. -/
theorem updateGroup_flatMap_perm {β : Type} {f : TransferGroup → List β} {new : List β}
    (hchange : ∀ g, g.denom = denom → f (change g) = f g ++ new)
    (hempty : f ⟨denom, [], []⟩ = []) (groups : List TransferGroup) :
    ((updateGroup denom change groups).flatMap f).Perm (groups.flatMap f ++ new) := by
  induction groups with
  | nil =>
    rw [updateGroup, List.flatMap_singleton, hchange _ rfl, hempty]
    exact List.Perm.refl _
  | cons g rest ih =>
    unfold updateGroup
    split
    · rename_i hg
      rw [List.flatMap_cons, List.flatMap_cons, hchange g hg, List.append_assoc, List.append_assoc]
      exact List.Perm.append_left _ List.perm_append_comm
    · rw [List.flatMap_cons, List.flatMap_cons, List.append_assoc]
      exact List.Perm.append_left _ ih

end

/-! ## Coins -/

/-- A coin that a party moves: its denomination, and the party with the amount. -/
abbrev Move := String × Party

/-- Every coin of some parties, in order. -/
def Gateway.moves (parties : List Gateway.TransferParty) : List Move :=
  parties.flatMap fun p => p.coins.map fun c => (c.denom, ⟨p.address, c.amount⟩)

/-- The parties that move a denomination, in order. -/
def moversOf (denom : String) (moves : List Move) : List Party :=
  (moves.filter fun m => m.1 = denom).map (·.2)

theorem moversOf_append_self (m : Move) (moves : List Move) :
    moversOf m.1 (moves ++ [m]) = moversOf m.1 moves ++ [m.2] := by
  simp [moversOf]

theorem moversOf_append_of_ne {denom : String} {m : Move} (h : denom ≠ m.1) (moves : List Move) :
    moversOf denom (moves ++ [m]) = moversOf denom moves := by
  simp [moversOf, Ne.symm h]

theorem moversOf_eq_nil_iff {denom : String} {moves : List Move} :
    moversOf denom moves = [] ↔ denom ∉ moves.map (·.1) := by
  unfold moversOf
  rw [List.map_eq_nil_iff, List.filter_eq_nil_iff, List.mem_map]
  constructor
  · rintro hnone ⟨m, hm, rfl⟩
    exact hnone m hm (decide_eq_true rfl)
  · intro hnone m hm heq
    exact hnone ⟨m, hm, of_decide_eq_true heq⟩

/-- The groups that coins sent and coins received make up: one for each denomination in order of
first appearance, with the parties that send it and those that receive it. -/
def gathered (sent received : List Move) : List TransferGroup :=
  ((sent ++ received).map (·.1)).eraseDups.map fun d =>
    ⟨d, moversOf d sent, moversOf d received⟩

theorem gathered_send (m : Move) (sent : List Move) :
    updateGroup m.1 (fun g => { g with senders := g.senders ++ [m.2] }) (gathered sent []) =
      gathered (sent ++ [m]) [] := by
  unfold gathered
  rw [List.append_nil, List.append_nil, List.map_append, List.map_singleton]
  apply updateGroup_eraseDups
  · exact fun _ => rfl
  · rw [moversOf_append_self]
  · intro d hd
    rw [moversOf_append_of_ne hd]
  · intro hnew
    rw [moversOf_eq_nil_iff.mpr hnew]
    rfl

theorem gathered_receive (m : Move) (sent received : List Move) :
    updateGroup m.1 (fun g => { g with receivers := g.receivers ++ [m.2] })
        (gathered sent received) =
      gathered sent (received ++ [m]) := by
  have hmoves : (sent ++ (received ++ [m])).map (·.1) =
      (sent ++ received).map (·.1) ++ [m.1] := by
    simp
  unfold gathered
  rw [hmoves]
  apply updateGroup_eraseDups
  · exact fun _ => rfl
  · rw [moversOf_append_self]
  · intro d hd
    rw [moversOf_append_of_ne hd]
  · intro hnew
    rw [List.map_append, List.mem_append, not_or] at hnew
    rw [moversOf_eq_nil_iff.mpr hnew.1, moversOf_eq_nil_iff.mpr hnew.2]

/-- The coins that groups say were sent. -/
def sendings (groups : List TransferGroup) : List Move :=
  groups.flatMap fun g => g.senders.map fun p => (g.denom, p)

/-- The coins that groups say were received. -/
def receipts (groups : List TransferGroup) : List Move :=
  groups.flatMap fun g => g.receivers.map fun p => (g.denom, p)

theorem sendings_perm (sent received : List Move) :
    (sendings (gathered sent received)).Perm sent := by
  induction received using List.reverseRecOn with
  | nil =>
    induction sent using List.reverseRecOn with
    | nil => exact List.Perm.nil
    | append_singleton sent m ih =>
      rw [← gathered_send]
      have hstep : (sendings (updateGroup m.1
          (fun g => { g with senders := g.senders ++ [m.2] }) (gathered sent []))).Perm
          (sendings (gathered sent []) ++ [m]) :=
        updateGroup_flatMap_perm (fun g hg => by simp [hg]) rfl (gathered sent [])
      exact hstep.trans (ih.append_right [m])
  | append_singleton received m ih =>
    rw [← gathered_receive]
    have hstep : (sendings (updateGroup m.1
        (fun g => { g with receivers := g.receivers ++ [m.2] }) (gathered sent received))).Perm
        (sendings (gathered sent received) ++ []) :=
      updateGroup_flatMap_perm (fun g _ => by simp) rfl (gathered sent received)
    rw [List.append_nil] at hstep
    exact hstep.trans ih

theorem receipts_perm (sent received : List Move) :
    (receipts (gathered sent received)).Perm received := by
  induction received using List.reverseRecOn with
  | nil =>
    have hnone : receipts (gathered sent []) = [] := by
      refine List.flatMap_eq_nil_iff.mpr fun g hg => ?_
      obtain ⟨d, -, rfl⟩ := List.mem_map.mp hg
      rfl
    rw [hnone]
  | append_singleton received m ih =>
    rw [← gathered_receive]
    have hstep : (receipts (updateGroup m.1
        (fun g => { g with receivers := g.receivers ++ [m.2] }) (gathered sent received))).Perm
        (receipts (gathered sent received) ++ [m]) :=
      updateGroup_flatMap_perm (fun g hg => by simp [hg]) rfl (gathered sent received)
    exact hstep.trans (ih.append_right [m])

/-- Every group has an entry on one side. -/
theorem gathered_nonempty {sent received : List Move} {g : TransferGroup}
    (hg : g ∈ gathered sent received) : g.senders ≠ [] ∨ g.receivers ≠ [] := by
  obtain ⟨d, hd, rfl⟩ := List.mem_map.mp hg
  rw [List.mem_eraseDups, List.map_append, List.mem_append] at hd
  exact hd.imp (fun hsent => mt moversOf_eq_nil_iff.mp (not_not_intro hsent))
    fun hreceived => mt moversOf_eq_nil_iff.mp (not_not_intro hreceived)

theorem gathered_denoms (sent received : List Move) :
    (gathered sent received).map (·.denom) = ((sent ++ received).map (·.1)).eraseDups := by
  unfold gathered
  rw [List.map_map]
  exact List.map_id _

/-! ## Whole replies -/

section

variable (r : Gateway.TransactionReply)

/-- A reply is turned into a transaction coin by coin, the inputs first. -/
theorem reply_foldl : r.transaction =
    (Gateway.moves r.outputs).foldl (fun tx m => tx.addReceiver m.1 m.2)
      ((Gateway.moves r.inputs).foldl (fun tx m => tx.addSender m.1 m.2)
        ⟨r.txid, r.height, r.memo, []⟩) := by
  unfold Gateway.TransactionReply.transaction Gateway.moves
  simp only [List.foldl_flatMap, List.foldl_map]

theorem foldl_addSender (tx : Transaction) (htx : tx.groups = []) (sent : List Move) :
    sent.foldl (fun tx m => tx.addSender m.1 m.2) tx =
      { tx with groups := gathered sent [] } := by
  induction sent using List.reverseRecOn with
  | nil =>
    rw [List.foldl_nil, show gathered [] [] = tx.groups from htx.symm]
  | append_singleton sent m ih =>
    rw [List.foldl_append, ih, List.foldl_cons, List.foldl_nil]
    unfold Transaction.addSender
    rw [gathered_send]

theorem foldl_addReceiver (tx : Transaction) {sent : List Move} (htx : tx.groups = gathered sent [])
    (received : List Move) :
    received.foldl (fun tx m => tx.addReceiver m.1 m.2) tx =
      { tx with groups := gathered sent received } := by
  induction received using List.reverseRecOn with
  | nil => rw [List.foldl_nil, ← htx]
  | append_singleton received m ih =>
    rw [List.foldl_append, ih, List.foldl_cons, List.foldl_nil]
    unfold Transaction.addReceiver
    rw [gathered_receive]

/-- The transaction of a reply in closed form. -/
theorem reply_transaction : r.transaction =
    ⟨r.txid, r.height, r.memo, gathered (Gateway.moves r.inputs) (Gateway.moves r.outputs)⟩ := by
  rw [reply_foldl, foldl_addSender _ rfl, foldl_addReceiver _ rfl]

end

theorem length_moves (parties : List Gateway.TransferParty) :
    (Gateway.moves parties).length = (parties.map (·.coins.length)).sum := by
  simp [Gateway.moves, List.length_flatMap]

theorem length_sendings (groups : List TransferGroup) :
    (sendings groups).length = (groups.map (·.senders.length)).sum := by
  simp [sendings, List.length_flatMap]

theorem length_receipts (groups : List TransferGroup) :
    (receipts groups).length = (groups.map (·.receivers.length)).sum := by
  simp [receipts, List.length_flatMap]

/-- **Grouping loses nothing and doubles nothing.**  The transaction of a reply has its identifier,
height and memo.  Its groups have different denominations, in the order in which these appear first
among all input coins and then all output coins.  The senders of a group are the parties that send
its denomination, coin by coin and in order, its receivers those that receive it, and one side at
least is not empty.  So the groups hold each coin of either side once. -/
theorem reply_grouped (r : Gateway.TransactionReply) :
    let tx := r.transaction
    let sent := Gateway.moves r.inputs
    let received := Gateway.moves r.outputs
    tx.txid = r.txid ∧ tx.height = r.height ∧ tx.memo = r.memo ∧
      tx.groups.map (·.denom) = ((sent ++ received).map (·.1)).eraseDups ∧
      (tx.groups.map (·.denom)).Nodup ∧
      (∀ g ∈ tx.groups, g.senders = moversOf g.denom sent ∧
        g.receivers = moversOf g.denom received ∧ (g.senders ≠ [] ∨ g.receivers ≠ [])) ∧
      (sendings tx.groups).Perm sent ∧ (receipts tx.groups).Perm received ∧
      (tx.groups.map (·.senders.length)).sum = (r.inputs.map (·.coins.length)).sum ∧
      (tx.groups.map (·.receivers.length)).sum = (r.outputs.map (·.coins.length)).sum := by
  intro tx sent received
  have htx : tx = ⟨r.txid, r.height, r.memo, gathered sent received⟩ := reply_transaction r
  have hgroups : tx.groups = gathered sent received := congrArg Transaction.groups htx
  have hsent : (sendings tx.groups).Perm sent := hgroups ▸ sendings_perm sent received
  have hreceived : (receipts tx.groups).Perm received := hgroups ▸ receipts_perm sent received
  refine ⟨congrArg Transaction.txid htx, congrArg Transaction.height htx,
    congrArg Transaction.memo htx, ?_, ?_, ?_, hsent, hreceived, ?_, ?_⟩
  · rw [hgroups, gathered_denoms]
  · rw [hgroups, gathered_denoms]
    exact nodup_eraseDups _
  · intro g hg
    rw [hgroups] at hg
    have hside := gathered_nonempty hg
    obtain ⟨d, -, rfl⟩ := List.mem_map.mp hg
    exact ⟨rfl, rfl, hside⟩
  · rw [← length_sendings, hsent.length_eq, length_moves]
  · rw [← length_receipts, hreceived.length_eq, length_moves]

end WalletScan
