import WalletScan.Cycle

/-!
# Records grouped by height

The retry pass works through the records height by height.

* `groupByHeight_grouped` — the groups are ordered by height, each holds exactly the records of its
  height in the order in which they were listed, and no record is left out.
-/

set_option autoImplicit false

namespace WalletScan

namespace Engine

/-- Groups stand for a list of records: in the order of heights, each with the records of its
height. -/
structure Grouped (records : List UnscannedRecord) (groups : HeightGroups) : Prop where
  sorted : groups.Pairwise fun g g' => g.1 < g'.1
  records_eq : ∀ g ∈ groups, g.2 = records.filter fun r => r.height == g.1
  covers : ∀ r ∈ records, ∃ g ∈ groups, g.1 = r.height
  occupied : ∀ g ∈ groups, g.2 ≠ []

/-- A record changes the group of its height, or makes one. -/
theorem mem_addToGroup {r : UnscannedRecord} :
    ∀ {groups : HeightGroups}, groups.Pairwise (fun g g' => g.1 < g'.1) →
      ∀ {g : UInt64 × List UnscannedRecord}, g ∈ addToGroup r groups →
        (g ∈ groups ∧ g.1 ≠ r.height) ∨
          (∃ rs, (r.height, rs) ∈ groups ∧ g = (r.height, rs ++ [r])) ∨
            ((∀ g' ∈ groups, g'.1 ≠ r.height) ∧ g = (r.height, [r]))
  | [], _, g, hg => .inr (.inr ⟨by simp, List.mem_singleton.mp hg⟩)
  | (h, rs) :: rest, hsorted, g, hg => by
    obtain ⟨hhead, htail⟩ := List.pairwise_cons.mp hsorted
    unfold addToGroup at hg
    split at hg
    · -- all groups are above the record
      rename_i hlt
      have habove : ∀ g' ∈ (h, rs) :: rest, g'.1 ≠ r.height := by
        rw [List.forall_mem_cons]
        refine ⟨by grind, fun g' hg' => ?_⟩
        have hg'lt : h < g'.1 := hhead g' hg'
        grind
      rcases List.mem_cons.mp hg with rfl | hg
      · exact .inr (.inr ⟨habove, rfl⟩)
      · exact .inl ⟨hg, habove g hg⟩
    · split at hg
      · rename_i heq
        rcases List.mem_cons.mp hg with rfl | hg
        · exact .inr (.inl ⟨rs, by simp [heq], by rw [heq]⟩)
        · have hglt : h < g.1 := hhead g hg
          exact .inl ⟨List.mem_cons_of_mem _ hg, by grind⟩
      · rename_i hne
        rcases List.mem_cons.mp hg with rfl | hg
        · exact .inl ⟨List.mem_cons_self, by grind⟩
        · rcases mem_addToGroup htail hg with ⟨hmem, hapart⟩ | ⟨rs', hmem, rfl⟩ | ⟨hnone, rfl⟩
          · exact .inl ⟨List.mem_cons_of_mem _ hmem, hapart⟩
          · exact .inr (.inl ⟨rs', List.mem_cons_of_mem _ hmem, rfl⟩)
          · refine .inr (.inr ⟨?_, rfl⟩)
            rw [List.forall_mem_cons]
            exact ⟨by grind, hnone⟩

theorem exists_mem_addToGroup (r : UnscannedRecord) (h : UInt64) :
    ∀ groups : HeightGroups, (∃ g ∈ addToGroup r groups, g.1 = h) ↔
      r.height = h ∨ ∃ g ∈ groups, g.1 = h
  | [] => by simp [addToGroup]
  | (k, rs) :: rest => by
    have ih := exists_mem_addToGroup r h rest
    unfold addToGroup
    split
    · simp
    · split
      · rename_i heq
        simp [heq]
      · simp only [List.mem_cons, exists_eq_or_imp, ih]
        exact or_left_comm

theorem addToGroup_sorted {r : UnscannedRecord} :
    ∀ {groups : HeightGroups}, groups.Pairwise (fun g g' => g.1 < g'.1) →
      (addToGroup r groups).Pairwise fun g g' => g.1 < g'.1
  | [], _ => List.pairwise_singleton _ _
  | (h, rs) :: rest, hsorted => by
    obtain ⟨hhead, htail⟩ := List.pairwise_cons.mp hsorted
    unfold addToGroup
    split
    · rename_i hlt
      refine List.pairwise_cons.mpr ⟨?_, hsorted⟩
      rw [List.forall_mem_cons]
      refine ⟨hlt, fun g hg => ?_⟩
      have hglt : h < g.1 := hhead g hg
      show r.height < g.1
      grind
    · split
      · exact List.pairwise_cons.mpr ⟨hhead, htail⟩
      · refine List.pairwise_cons.mpr ⟨fun g hg => ?_, addToGroup_sorted htail⟩
        have hheight := (exists_mem_addToGroup r g.1 rest).mp ⟨g, hg, rfl⟩
        show h < g.1
        rcases hheight with heq | ⟨g', hg', heq⟩
        · grind
        · exact heq ▸ hhead g' hg'

theorem Grouped.add {records : List UnscannedRecord} {groups : HeightGroups}
    (h : Grouped records groups) (r : UnscannedRecord) :
    Grouped (records ++ [r]) (addToGroup r groups) := by
  refine ⟨addToGroup_sorted h.sorted, fun g hg => ?_, fun r' hr' => ?_, fun g hg => ?_⟩
  · rw [List.filter_append]
    rcases mem_addToGroup h.sorted hg with ⟨hmem, hapart⟩ | ⟨rs, hmem, rfl⟩ | ⟨hnone, rfl⟩
    · rw [h.records_eq g hmem]
      simp [hapart.symm]
    · have hrs : rs = records.filter fun r' => r'.height == r.height := h.records_eq _ hmem
      simp [hrs]
    · -- no record of this height was listed before
      have hfirst : records.filter (fun r' => r'.height == r.height) = [] := by
        rw [List.filter_eq_nil_iff]
        intro r' hr' heq
        obtain ⟨g', hg', hheight⟩ := h.covers r' hr'
        exact hnone g' hg' (hheight.trans (by simpa using heq))
      simp [hfirst]
  · refine (exists_mem_addToGroup r r'.height groups).mpr ?_
    rcases List.mem_append.mp hr' with hr' | hr'
    · exact .inr (h.covers r' hr')
    · exact .inl (by rw [List.mem_singleton.mp hr'])
  · rcases mem_addToGroup h.sorted hg with ⟨hmem, -⟩ | ⟨rs, -, rfl⟩ | ⟨-, rfl⟩
    · exact h.occupied g hmem
    · simp
    · simp

/-- **Grouping sorts and loses nothing.** -/
theorem groupByHeight_grouped (records : List UnscannedRecord) :
    Grouped records (groupByHeight records) := by
  suffices hfold : ∀ (past rest : List UnscannedRecord) (groups : HeightGroups),
      Grouped past groups →
        Grouped (past ++ rest) (rest.foldl (fun groups r => addToGroup r groups) groups) by
    exact hfold [] records [] ⟨.nil, by simp, by simp, by simp⟩
  intro past rest
  induction rest generalizing past with
  | nil => simp
  | cons r rest ih =>
    intro groups h
    have hnext := ih (past ++ [r]) _ (h.add r)
    rwa [List.append_assoc] at hnext

theorem Grouped.among {records all : List UnscannedRecord} {groups : HeightGroups}
    (h : Grouped records groups) (hsub : records ⊆ all) :
    ∀ g ∈ groups, ∀ r ∈ g.2, r ∈ all ∧ r.height = g.1 := by
  intro g hg r hr
  rw [h.records_eq g hg, List.mem_filter, beq_iff_eq] at hr
  exact ⟨hsub hr.1, hr.2⟩

theorem Grouped.exists_record {records : List UnscannedRecord} {groups : HeightGroups}
    (h : Grouped records groups) {g : UInt64 × List UnscannedRecord} (hg : g ∈ groups) :
    ∃ r ∈ records, r.height = g.1 := by
  obtain ⟨r, hr⟩ := List.exists_mem_of_ne_nil _ (h.occupied g hg)
  rw [h.records_eq g hg, List.mem_filter] at hr
  exact ⟨r, hr.1, by simpa using hr.2⟩

end Engine

end WalletScan
