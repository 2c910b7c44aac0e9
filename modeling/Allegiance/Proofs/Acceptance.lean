import Allegiance.Proofs.Mentions

namespace Allegiance

/-- Groups under a name, with a weapon, no blank one, and none on both sides. -/
structure Unambiguous (version : String) (groups : List WeaponGroup) : Prop where
  named : Text.isBlank version = false
  listed : ∃ f w, ListedUnder groups f w
  noBlank : ∀ f w, ListedUnder groups f w → Text.isBlank w = false
  oneSide : ∀ w, ¬ (ListedUnder groups .axis w ∧ ListedUnder groups .allies w)

/-- What groups that are no taxonomy are refused for. A blank version comes before everything else;
that nothing is listed is only said where there is nothing to offend. -/
inductive Refused (version : String) (groups : List WeaponGroup) : TaxonomyFlaw → Prop
  | unnamed (h : Text.isBlank version = true) : Refused version groups .blankVersion
  | offence {flaw : TaxonomyFlaw} (hname : Text.isBlank version = false)
      (h : FirstOffence (mentions groups) flaw) : Refused version groups flaw
  | unlisted (hname : Text.isBlank version = false) (h : ∀ f w, ¬ ListedUnder groups f w) :
      Refused version groups .noWeapons

/-- What holds of every mention holds of everything that is listed. -/
theorem forall_mentions_iff {groups : List WeaponGroup} {p : Faction → String → Prop} :
    (∀ m ∈ mentions groups, p m.group.faction m.weapon) ↔
      ∀ f w, ListedUnder groups f w → p f w := by
  simp only [listedUnder_iff]
  constructor
  · rintro h f w ⟨m, hm, rfl, rfl⟩
    exact h m hm
  · intro h m hm
    exact h m.group.faction m.weapon ⟨m, hm, rfl, rfl⟩

theorem mentions_eq_nil_iff {groups : List WeaponGroup} :
    mentions groups = [] ↔ ∀ f w, ¬ ListedUnder groups f w := by
  rw [List.eq_nil_iff_forall_not_mem]
  exact forall_mentions_iff (p := fun _ _ => False)

/-- With two sides, agreement of all pairs is the same as no identifier on both. -/
theorem forall_side_iff {groups : List WeaponGroup} :
    (∀ a ∈ mentions groups, ∀ b ∈ mentions groups,
        a.weapon = b.weapon → a.group.faction = b.group.faction) ↔
      ∀ w, ¬ (ListedUnder groups .axis w ∧ ListedUnder groups .allies w) := by
  simp only [listedUnder_iff]
  constructor
  · rintro h w ⟨⟨a, ha, hfa, rfl⟩, b, hb, hfb, hw⟩
    have := h a ha b hb hw.symm
    rw [hfa, hfb] at this
    cases this
  · intro h a ha b hb hw
    cases hfa : a.group.faction <;> cases hfb : b.group.faction
    · rfl
    · exact absurd ⟨⟨a, ha, hfa, rfl⟩, b, hb, hfb, hw.symm⟩ (h a.weapon)
    · exact absurd ⟨⟨b, hb, hfb, hw.symm⟩, a, ha, hfa, rfl⟩ (h a.weapon)
    · rfl

theorem unambiguous_iff {version : String} {groups : List WeaponGroup} :
    Unambiguous version groups ↔
      Text.isBlank version = false ∧ mentions groups ≠ [] ∧ Clean (mentions groups) := by
  rw [clean_iff, forall_mentions_iff (p := fun _ w => Text.isBlank w = false), forall_side_iff, Ne,
    mentions_eq_nil_iff]
  simp only [not_forall, not_not]
  constructor
  · rintro ⟨hname, hlisted, hblank, hside⟩
    exact ⟨hname, hlisted, hblank, hside⟩
  · rintro ⟨hname, hlisted, hblank, hside⟩
    exact ⟨hname, hlisted, hblank, hside⟩

namespace Taxonomy

variable {version : String} {groups : List WeaponGroup}

theorem ofGroups_eq_ok {t : Taxonomy} (h : ofGroups version groups = .ok t) :
    Unambiguous version groups ∧ t.version = version ∧ t.groups = groups ∧
      t.index.Knows (mentions groups) := by
  rw [ofGroups] at h
  split at h
  · cases h
  · rename_i hname
    cases hrun : WeaponIndex.ofListings (listings groups) with
    | error flaw =>
      rw [hrun] at h
      cases h
    | ok index =>
      simp only [hrun, bind, Except.bind] at h
      split at h
      · cases h
      · rename_i hempty
        cases h
        rw [listings_eq] at hrun
        obtain ⟨hclean, hknows⟩ := WeaponIndex.ofListings_eq_ok hrun
        rw [hknows.isEmpty_iff] at hempty
        exact ⟨unambiguous_iff.mpr ⟨by simpa using hname, hempty, hclean⟩, rfl, rfl, hknows⟩

theorem exists_ofGroups (h : Unambiguous version groups) : ∃ t, ofGroups version groups = .ok t := by
  obtain ⟨hname, hlisted, hclean⟩ := unambiguous_iff.mp h
  obtain ⟨index, hrun, hknows⟩ := WeaponIndex.ofListings_of_clean hclean
  have hempty : index.isEmpty = false := by
    rw [Bool.eq_false_iff, Ne, hknows.isEmpty_iff]
    exact hlisted
  refine ⟨⟨version, groups, index⟩, ?_⟩
  simp [ofGroups, hname, listings_eq, hrun, hempty, bind, Except.bind]

theorem ofGroups_of_refused {flaw : TaxonomyFlaw} (h : Refused version groups flaw) :
    ofGroups version groups = .error flaw := by
  cases h with
  | unnamed h => simp [ofGroups, h]
  | offence hname h =>
    simp [ofGroups, hname, listings_eq, WeaponIndex.ofListings_of_firstOffence h, bind, Except.bind]
  | unlisted hname h =>
    have hnil := mentions_eq_nil_iff.mpr h
    have hrun : WeaponIndex.ofListings (listings groups) = .ok ∅ := by
      rw [listings_eq, hnil]
      rfl
    simp [ofGroups, hname, hrun, bind, Except.bind]

theorem unambiguous_or_refused (version : String) (groups : List WeaponGroup) :
    Unambiguous version groups ∨ ∃ flaw, Refused version groups flaw := by
  cases hname : Text.isBlank version with
  | true => exact .inr ⟨_, .unnamed hname⟩
  | false =>
    rcases clean_or_firstOffence (mentions groups) with hclean | ⟨flaw, hfirst⟩
    · by_cases hnil : mentions groups = []
      · exact .inr ⟨_, .unlisted hname (mentions_eq_nil_iff.mp hnil)⟩
      · exact .inl (unambiguous_iff.mpr ⟨hname, hnil, hclean⟩)
    · exact .inr ⟨flaw, .offence hname hfirst⟩

/-- Groups become a taxonomy exactly if they are unambiguous. Others are refused for a blank version,
for the first offence in reading order, or because nothing is listed, and for nothing else. -/
theorem ofGroups_ok_iff_unambiguous (version : String) (groups : List WeaponGroup) :
    ((∃ t, ofGroups version groups = .ok t) ↔ Unambiguous version groups) ∧
      ∀ flaw, ofGroups version groups = .error flaw ↔ Refused version groups flaw := by
  refine ⟨⟨?_, exists_ofGroups⟩, fun flaw => ⟨fun h => ?_, ofGroups_of_refused⟩⟩
  · rintro ⟨t, ht⟩
    exact (ofGroups_eq_ok ht).1
  · rcases unambiguous_or_refused version groups with haccepted | ⟨flaw', hrefused⟩
    · obtain ⟨t, ht⟩ := exists_ofGroups haccepted
      cases h.symm.trans ht
    · cases h.symm.trans (ofGroups_of_refused hrefused)
      exact hrefused

end Taxonomy

end Allegiance
