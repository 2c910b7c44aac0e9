import Allegiance.Proofs.EarlyExit

namespace Allegiance

def WeaponEntry.swap (e : WeaponEntry) : WeaponEntry := { e with faction := e.faction.opponent }

def Listing.swap (l : Listing) : Listing := ⟨l.weapon, l.entry.swap⟩

/-- Two outcomes that are the same up to an exchange of the sides: both a refusal, for the same flaw,
or both a success. -/
inductive Mirrored {α : Type} (mirrors : α → α → Prop) :
    Except TaxonomyFlaw α → Except TaxonomyFlaw α → Prop
  | refused (flaw : TaxonomyFlaw) : Mirrored mirrors (.error flaw) (.error flaw.swap)
  | accepted {x x' : α} (h : mirrors x x') : Mirrored mirrors (.ok x) (.ok x')

def WeaponIndex.Mirrors (index index' : WeaponIndex) : Prop :=
  ∀ w : String, index'[w]? = (index[w]?).map WeaponEntry.swap

/-- Two taxonomies with the same weapons on exchanged sides. -/
structure Taxonomy.Mirrors (t t' : Taxonomy) : Prop where
  version : t'.version = t.version
  groups : t'.groups = t.groups.map WeaponGroup.swap
  lookup : ∀ w, t'.lookup w = (t.lookup w).map WeaponEntry.swap

theorem Faction.opponent_inj {f g : Faction} : f.opponent = g.opponent ↔ f = g := by
  cases f <;> cases g <;> simp [opponent]

theorem Mirrored.bind {α β : Type} {r : α → α → Prop} {s : β → β → Prop}
    {x x' : Except TaxonomyFlaw α} {next next' : α → Except TaxonomyFlaw β}
    (h : Mirrored r x x') (hnext : ∀ a a', r a a' → Mirrored s (next a) (next' a')) :
    Mirrored s (x >>= next) (x' >>= next') := by
  cases h with
  | refused flaw => exact .refused flaw
  | accepted ha => exact hnext _ _ ha

theorem WeaponGroup.listings_swap (g : WeaponGroup) :
    g.swap.listings = g.listings.map Listing.swap := by
  simp only [listings, swap, List.map_append, List.map_map]
  rfl

theorem listings_swap (groups : List WeaponGroup) :
    listings (groups.map WeaponGroup.swap) = (listings groups).map Listing.swap := by
  rw [listings, listings, List.flatMap_map, List.map_flatMap]
  congr 1
  funext g
  exact g.listings_swap

namespace WeaponIndex

variable {index index' : WeaponIndex}

theorem mirrors_insert (h : index.Mirrors index') (w : String) (e : WeaponEntry) :
    Mirrors (index.insert w e) (index'.insert w e.swap) := by
  intro v
  rw [Std.TreeMap.getElem?_insert, Std.TreeMap.getElem?_insert, h v]
  split <;> rfl

/-- One mention is taken up, passed over or refused alike on both sides. -/
theorem add_mirrored (h : index.Mirrors index') (l : Listing) :
    Mirrored Mirrors (index.add l) (index'.add l.swap) := by
  have hknown := h l.weapon
  cases hblank : Text.isBlank l.weapon with
  | true =>
    simp only [add, Listing.swap, hblank, ↓reduceIte]
    exact .refused (.blankWeapon l.entry.nation)
  | false =>
    cases hfound : index[l.weapon]? with
    | none =>
      rw [hfound, Option.map_none] at hknown
      simp only [add, Listing.swap, hblank, hfound, hknown, Bool.false_eq_true, ↓reduceIte]
      exact .accepted (mirrors_insert h l.weapon l.entry)
    | some known =>
      rw [hfound, Option.map_some] at hknown
      simp only [add, Listing.swap, hblank, hfound, hknown, WeaponEntry.swap,
        Faction.opponent_inj, Bool.false_eq_true, ↓reduceIte]
      split
      · exact .accepted h
      · exact .refused (.bothFactions l.weapon known.faction l.entry.faction)

theorem foldlM_add_mirrored (ls : List Listing) (h : index.Mirrors index') :
    Mirrored Mirrors (ls.foldlM add index) ((ls.map Listing.swap).foldlM add index') := by
  induction ls generalizing index index' with
  | nil => exact .accepted h
  | cons l ls ih =>
    rw [List.map_cons, List.foldlM_cons, List.foldlM_cons]
    apply (add_mirrored h l).bind
    intro next next' hnext
    exact ih hnext

theorem Mirrors.isEmpty_eq (h : index.Mirrors index') : index'.isEmpty = index.isEmpty := by
  rw [Bool.eq_iff_iff, Std.TreeMap.isEmpty_iff_forall_not_mem,
    Std.TreeMap.isEmpty_iff_forall_not_mem]
  simp only [Std.TreeMap.mem_iff_isSome_getElem?, h _, Option.isSome_map]

end WeaponIndex

namespace Taxonomy

theorem ofGroups_mirrored (version : String) (groups : List WeaponGroup) :
    Mirrored Mirrors (ofGroups version groups)
      (ofGroups version (groups.map WeaponGroup.swap)) := by
  unfold ofGroups
  split
  · exact .refused .blankVersion
  · have hempty : WeaponIndex.Mirrors ∅ ∅ := by
      intro w
      simp
    rw [listings_swap]
    apply (WeaponIndex.foldlM_add_mirrored (listings groups) hempty).bind
    intro index index' h
    rw [h.isEmpty_eq]
    split
    · exact .refused .noWeapons
    · exact .accepted ⟨rfl, rfl, h⟩

theorem Mirrors.factionOf_eq {t t' : Taxonomy} (h : t.Mirrors t') (w : String) :
    t'.factionOf w = (t.factionOf w).map Faction.opponent := by
  rw [factionOf, factionOf, h.lookup, Option.map_map, Option.map_map]
  rfl

end Taxonomy

section Sums

variable {side side' : String → Option Faction} {f : Faction} {es : Entries}

theorem eq_some_opponent_iff {x : Option Faction} :
    x.map Faction.opponent = some f ↔ x = some f.opponent := by
  cases x with
  | none => simp
  | some g => cases g <;> cases f <;> simp [Faction.opponent]

theorem sideKills_swap (h : ∀ w, side' w = (side w).map Faction.opponent) :
    sideKills side' f es = sideKills side f.opponent es := by
  simp only [sideKills, h, eq_some_opponent_iff]

/-- If a side is the first to have enough, its opponent is when the sides are exchanged. -/
theorem FirstToReach.swap {enough : Nat → Prop} (h : FirstToReach side enough f es)
    (hside : ∀ w, side' w = (side w).map Faction.opponent) :
    FirstToReach side' enough f.opponent es := by
  obtain ⟨before, entry, after, hes, hnone, hfirst, halone⟩ := h
  refine ⟨before, entry, after, hes, ?_, ?_, ?_⟩
  · intro g
    rw [sideKills_swap hside]
    exact hnone g.opponent
  · rwa [sideKills_swap hside, Faction.opponent_opponent]
  · rwa [sideKills_swap hside, Faction.opponent_opponent]

theorem undecided_swap (axis allies : Nat) : (undecided axis allies).swap = undecided allies axis := by
  simp only [undecided, and_comm]
  split <;> rfl

end Sums

theorem classify_swap {t t' : Taxonomy} {tuning : Tuning} {total : UInt32} {u : Usage}
    (h : t.Mirrors t') (hratio : tuning.RatioAbove 0) (hpos : 0 < total) :
    classify t' tuning total u = (classify t tuning total u).swap := by
  have hsums : ∀ f, u.sideKills t' f = u.sideKills t f.opponent :=
    fun f => sideKills_swap h.factionOf_eq
  rcases classify_outcome (t := t) (u := u) hratio hpos with ⟨f, hf, hfirst⟩ | ⟨hnone, hlabel⟩
  · rw [hf, Label.swap_label]
    apply (classify_eq_label_iff hratio hpos f.opponent).mpr
    exact hfirst.swap h.factionOf_eq
  · have hnone' : ∀ f, ¬ tuning.MetBy total (u.sideKills t' f) := by
      intro f
      rw [hsums]
      exact hnone f.opponent
    rw [classify_eq_undecided hratio hpos hnone', hlabel, undecided_swap, hsums, hsums]
    rfl

namespace Taxonomy

/-- Groups whose sides are exchanged have the same outcome with the sides exchanged, and where they
are accepted every player with kills has the label of the other side. Axis is asked first, but where
the walk ends only one side has enough. -/
theorem ofGroups_swap (version : String) (groups : List WeaponGroup) :
    Mirrored Mirrors (ofGroups version groups)
        (ofGroups version (groups.map WeaponGroup.swap)) ∧
      ∀ t t', ofGroups version groups = .ok t →
        ofGroups version (groups.map WeaponGroup.swap) = .ok t' →
        ∀ (tuning : Tuning) (total : UInt32) (u : Usage), tuning.RatioAbove 0 → 0 < total →
          classify t' tuning total u = (classify t tuning total u).swap := by
  have hmirrored := ofGroups_mirrored version groups
  refine ⟨hmirrored, ?_⟩
  intro t t' ht ht' tuning total u hratio hpos
  rw [ht, ht'] at hmirrored
  cases hmirrored with
  | accepted h => exact classify_swap h hratio hpos

/-- Both sides have enough, and the one entered first is named, whichever it is. -/
theorem ofGroups_swap_tied :
    ∃ t t', ofGroups "1" twoWeapons.groups = .ok t ∧
      ofGroups "1" (twoWeapons.groups.map WeaponGroup.swap) = .ok t' ∧
      Tuning.standard.RatioAbove 0 ∧ (0 : UInt32) < 4 ∧
      classify t .standard 4 tied = .allies ∧ classify t' .standard 4 tied = .axis := by
  refine ⟨twoWeapons, _, rfl, rfl, Tuning.standard_ratioAbove, by decide, classify_tied, ?_⟩
  rw [(ofGroups_swap "1" twoWeapons.groups).2 twoWeapons _ rfl rfl .standard 4 tied
    Tuning.standard_ratioAbove (by decide), classify_tied]
  rfl

end Taxonomy

end Allegiance
