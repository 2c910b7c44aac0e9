import Allegiance.Proofs.EarlyExit
import Allegiance.Proofs.Entries
import Allegiance.Proofs.Ranking

namespace Allegiance

/-- One label in the place of another, where `f` gained kills and nothing else changed. -/
structure NoWorseFor (f : Faction) (before after : Label) : Prop where
  own : before = f.label → after = f.label
  opponent : before = f.opponent.label → after = f.opponent.label ∨ after = f.label
  mixed : before = .mixed → after = .mixed ∨ after = f.label
  unknown : before = .unknown → after ≠ f.opponent.label

def others (w : String) (es : Entries) : Entries := es.filter (fun e => e.1 ≠ w)

section Others

variable {side : String → Option Faction} {f : Faction} {w : String} {es es' : Entries}

theorem filter_weapon {n : UInt32} (hnodup : (es.map Prod.fst).Nodup) (h : (w, n) ∈ es) :
    es.filter (fun e => e.1 = w) = [(w, n)] := by
  obtain ⟨before, after, rfl⟩ := List.append_of_mem h
  rw [List.map_append, List.map_cons, List.nodup_append, List.nodup_cons] at hnodup
  obtain ⟨-, ⟨hafter, -⟩, hbefore⟩ := hnodup
  have hnone : before.filter (fun e => e.1 = w) = [] := by
    apply List.filter_eq_nil_iff.mpr
    intro e he
    simpa using hbefore e.1 (List.mem_map_of_mem he) w (by simp)
  have hnone' : after.filter (fun e => e.1 = w) = [] := by
    apply List.filter_eq_nil_iff.mpr
    intro e he
    simp only [decide_eq_true_eq]
    rintro rfl
    exact hafter (List.mem_map.mpr ⟨e, he, rfl⟩)
  rw [List.filter_append, List.filter_cons, hnone, hnone']
  simp

/-- A side the weapon is not of has its kills from the others. -/
theorem sideKills_others (h : side w ≠ some f) :
    sideKills side f (others w es) = sideKills side f es := by
  apply sideKills_filter
  intro e _ hs
  simp only [decide_not, Bool.not_eq_eq_eq_not, Bool.not_true, decide_eq_false_iff_not]
  rintro rfl
  exact h hs

theorem sideKills_le_of_others (hnodup : (es.map Prod.fst).Nodup)
    (hothers : others w es = others w es')
    (hweapon : ∀ old, (w, old) ∈ es → ∃ new, (w, new) ∈ es' ∧ old ≤ new) :
    sideKills side f es ≤ sideKills side f es' := by
  by_cases hs : side w = some f
  · have hown : sideKills side f (es.filter (fun e => e.1 = w)) ≤
        sideKills side f (es'.filter (fun e => e.1 = w)) := by
      by_cases hlisted : ∃ old, (w, old) ∈ es
      · obtain ⟨old, hold⟩ := hlisted
        obtain ⟨new, hnew, hle⟩ := hweapon old hold
        calc sideKills side f (es.filter (fun e => e.1 = w))
            = old.toNat := by simp [filter_weapon hnodup hold, sideKills, hs]
          _ ≤ new.toNat := UInt32.le_iff_toNat_le.mp hle
          _ ≤ sideKills side f (es'.filter (fun e => e.1 = w)) :=
            le_sideKills_of_mem (by simp [hnew]) hs
      · have hnone : es.filter (fun e => e.1 = w) = [] := by
          apply List.filter_eq_nil_iff.mpr
          rintro ⟨v, n⟩ he hv
          simp only [decide_eq_true_eq] at hv
          subst hv
          exact hlisted ⟨n, he⟩
        simp [hnone]
    -- What counts for a side is what its entries for the weapon and those for the others count.
    have hsplit : sideKills side f es = _ := (sideKills_filter_add fun e => decide (e.1 = w)).symm
    have hsplit' : sideKills side f es' = _ := (sideKills_filter_add fun e => decide (e.1 = w)).symm
    simp only [others, decide_not] at hothers
    rw [hsplit, hsplit', hothers]
    omega
  · rw [← sideKills_others hs, hothers, sideKills_others hs]

end Others

namespace Usage

variable {u : Usage} {w : String} {count : UInt32}

/-- Entering a count changes no other entry, and moves none. -/
theorem others_insert (u : Usage) (w : String) (count : UInt32) :
    others w (u.insert w count).toList = others w u.toList := by
  by_cases hw : w ∈ u.toList.map Prod.fst
  · obtain ⟨before, old, after, hsplit⟩ := exists_split hw
    rw [toList_insert_of_split hsplit, hsplit]
    simp [others]
  · rw [toList_insert_of_not_mem hw]
    simp [others]

theorem nodup_byCountDesc (u : Usage) : (u.byCountDesc.map Prod.fst).Nodup :=
  (u.byCountDesc_perm.map Prod.fst).nodup_iff.mpr u.nodup_names

theorem others_byCountDesc_insert (u : Usage) (w : String) (count : UInt32) :
    others w u.byCountDesc = others w (u.insert w count).byCountDesc := by
  rw [byCountDesc_eq, byCountDesc_eq, others, others, ranked_filter, ranked_filter]
  exact congrArg ranked (u.others_insert w count).symm

end Usage

theorem undecided_eq_mixed_iff {axis allies : Nat} :
    undecided axis allies = .mixed ↔ 0 < axis ∧ 0 < allies := by
  simp [undecided]

theorem Faction.label_ne_opponent (f : Faction) : f.label ≠ f.opponent.label := by
  cases f <;> decide

section Insert

variable {t : Taxonomy} {tuning : Tuning} {total : UInt32} {u : Usage} {w : String}
  {f : Faction} {count : UInt32}

theorem sideKills_le_insert (hmore : ∀ old, u.get? w = some old → old ≤ count) (g : Faction) :
    u.sideKills t g ≤ (u.insert w count).sideKills t g := by
  apply sideKills_le_of_others u.nodup_names (u.others_insert w count).symm
  intro old hold
  exact ⟨count, u.mem_insert w count, hmore old (Usage.mem_toList_iff.mp hold)⟩

/-- The entry of a weapon that gained kills moves forward in the ranking and no other entry moves,
so it stands before everything it stood before. -/
theorem mem_before_of_insert {before after before' after' : Entries} {e : String × UInt32}
    {old : UInt32} (hu : u.byCountDesc = before ++ e :: after)
    (hv : (u.insert w count).byCountDesc = before' ++ e :: after')
    (hne : e.1 ≠ w) (hold : (w, old) ∈ before) (hlt : old < count) : (w, count) ∈ before' := by
  have hfalling := falling_ranked u.toList
  rw [← Usage.byCountDesc_eq, hu, Falling, List.pairwise_append] at hfalling
  obtain ⟨-, -, hacross⟩ := hfalling
  have hle : e.2 ≤ old := hacross (w, old) hold e (by simp)
  have hmem : (w, count) ∈ (u.insert w count).byCountDesc :=
    (u.insert w count).byCountDesc_perm.mem_iff.mpr (u.mem_insert w count)
  rw [hv, List.mem_append, List.mem_cons] at hmem
  rcases hmem with hmem | he | hmem
  · exact hmem
  · exact absurd (congrArg Prod.fst he).symm hne
  · have hfalling' := falling_ranked (u.insert w count).toList
    rw [← Usage.byCountDesc_eq, hv, Falling, List.pairwise_append, List.pairwise_cons] at hfalling'
    obtain ⟨-, ⟨hlater, -⟩, -⟩ := hfalling'
    have hle' : count ≤ e.2 := hlater (w, count) hmem
    exact absurd (UInt32.le_trans hle' hle) (UInt32.not_le.mpr hlt)

/-- If the opponent is the first to have enough after a side gained kills, it was so before. -/
theorem firstToReach_of_insert {enough : Nat → Prop}
    (hmono : ∀ {a b}, enough a → a ≤ b → enough b) (hside : t.factionOf w = some f)
    (hmore : ∀ old, u.get? w = some old → old ≤ count)
    (h : FirstToReach t.factionOf enough f.opponent (u.insert w count).byCountDesc) :
    FirstToReach t.factionOf enough f.opponent u.byCountDesc := by
  have hs := ne_some_opponent hside
  -- Nothing was gained if the count is the old one, and the ranking is the same then.
  by_cases hsame : u.get? w = some count
  · rwa [Usage.byCountDesc_eq, Usage.toList_insert_self hsame] at h
  · refine h.of_split hmono ?_
    intro before' e after' hv he
    have hne : e.1 ≠ w := by
      intro hw
      exact hs (hw ▸ he)
    obtain ⟨before, after, hu, hothers⟩ :=
      exists_split_of_filter (u.others_byCountDesc_insert w count) hv (by simpa using hne)
    change others w before = others w before' at hothers
    refine ⟨before, after, hu, ?_, ?_⟩
    · rw [← sideKills_others hs, hothers, sideKills_others hs]
    · have hnodup : (before.map Prod.fst).Nodup := by
        have := u.nodup_byCountDesc
        rw [hu, List.map_append] at this
        exact (List.nodup_append.mp this).1
      apply sideKills_le_of_others hnodup hothers
      intro old hold
      have hlisted : u.get? w = some old := by
        apply Usage.mem_toList_iff.mp
        apply u.byCountDesc_perm.mem_iff.mp
        rw [hu]
        exact List.mem_append_left _ hold
      have hlt : old < count := by
        apply UInt32.lt_of_le_of_ne (hmore old hlisted)
        rintro rfl
        exact hsame hlisted
      exact ⟨count, mem_before_of_insert hu hv hne hold hlt, UInt32.le_of_lt hlt⟩

/-- More kills with a weapon of a side never hurt it. A label that names the side stays; one that
names the opponent stays or goes over to the side; a mixed one stays or names the side; an unknown
one does not come to name the opponent. -/
theorem classify_insert_noWorse (t : Taxonomy) (tuning : Tuning) (total : UInt32) (u : Usage)
    (w : String) (f : Faction) (count : UInt32) (hratio : tuning.RatioAbove 0) (hpos : 0 < total)
    (hside : t.factionOf w = some f) (hmore : ∀ old, u.get? w = some old → old ≤ count) :
    NoWorseFor f (classify t tuning total u) (classify t tuning total (u.insert w count)) := by
  rcases classify_outcome (t := t) (u := u.insert w count) hratio hpos with
    ⟨g, hg, hfirst⟩ | ⟨hnone, hlabel⟩
  · rw [hg]
    by_cases hgf : g = f
    · subst hgf
      exact ⟨fun _ => rfl, fun _ => .inr rfl, fun _ => .inr rfl, fun _ => g.label_ne_opponent⟩
    · -- The opponent was the first to have enough before.
      rw [Faction.eq_opponent_of_ne hgf] at hfirst ⊢
      have hbefore := (classify_eq_label_iff hratio hpos f.opponent).mpr
        (firstToReach_of_insert (fun ha hab => ha.mono hab) hside hmore hfirst)
      rw [hbefore]
      exact ⟨fun h => absurd h.symm f.label_ne_opponent, fun _ => .inl rfl,
        fun h => absurd h f.opponent.label_ne_mixed, fun h => absurd h f.opponent.label_ne_unknown⟩
  · have hnone' : ∀ g, ¬ tuning.MetBy total (u.sideKills t g) := by
      intro g hg
      exact hnone g (hg.mono (sideKills_le_insert hmore g))
    rw [hlabel, classify_eq_undecided hratio hpos hnone']
    refine ⟨fun h => absurd h (undecided_ne_label _ _ f),
      fun h => absurd h (undecided_ne_label _ _ f.opponent), ?_,
      fun _ => undecided_ne_label _ _ f.opponent⟩
    intro h
    left
    obtain ⟨haxis, hallies⟩ := undecided_eq_mixed_iff.mp h
    apply undecided_eq_mixed_iff.mpr
    exact ⟨lt_of_lt_of_le haxis (sideKills_le_insert hmore .axis),
      lt_of_lt_of_le hallies (sideKills_le_insert hmore .allies)⟩

/-- The side that was entered first wins a tie, and goes on winning it with one kill more. -/
theorem classify_insert_noWorse_tied :
    Tuning.standard.RatioAbove 0 ∧ (0 : UInt32) < 4 ∧
      twoWeapons.factionOf "M1 GARAND" = some .allies ∧ tied.get? "M1 GARAND" = some 4 ∧
      classify twoWeapons .standard 4 tied = .allies ∧
      classify twoWeapons .standard 4 (tied.insert "M1 GARAND" 5) = .allies := by
  have hlisted : tied.get? "M1 GARAND" = some 4 := by decide +kernel
  have h := classify_insert_noWorse twoWeapons .standard 4 tied "M1 GARAND" .allies 5
    Tuning.standard_ratioAbove (by decide) (by decide +kernel) (by
      intro old hold
      rw [hlisted, Option.some.injEq] at hold
      subst hold
      decide)
  exact ⟨Tuning.standard_ratioAbove, by decide, by decide +kernel, hlisted, classify_tied,
    h.own classify_tied⟩

end Insert

end Allegiance
