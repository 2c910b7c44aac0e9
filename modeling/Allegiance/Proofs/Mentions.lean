import Mathlib.Data.List.Induction
import Allegiance.Taxonomy.Basic

namespace Allegiance

/-- An identifier at one place in the groups: the group, the list of the group, and the identifier. -/
structure Mention where
  group : WeaponGroup
  kind : WeaponKind
  weapon : String

namespace WeaponGroup

def weapons (g : WeaponGroup) : List String := g.infantry ++ g.vehicles

def mentions (g : WeaponGroup) : List Mention :=
  g.infantry.map (⟨g, .infantry, ·⟩) ++ g.vehicles.map (⟨g, .vehicle, ·⟩)

end WeaponGroup

/-- The mentions in reading order: the groups in order, infantry before vehicles in each. -/
def mentions (groups : List WeaponGroup) : List Mention := groups.flatMap WeaponGroup.mentions

def ListedUnder (groups : List WeaponGroup) (f : Faction) (w : String) : Prop :=
  ∃ g ∈ groups, g.faction = f ∧ w ∈ g.weapons

def firstMention (ms : List Mention) (w : String) : Option Mention :=
  ms.find? (fun m => m.weapon = w)

namespace Mention

def entry (m : Mention) : WeaponEntry := ⟨m.group.faction, m.group.nation, m.kind⟩

def listing (m : Mention) : Listing := ⟨m.weapon, m.entry⟩

end Mention

theorem listings_eq (groups : List WeaponGroup) :
    listings groups = (mentions groups).map Mention.listing := by
  rw [listings, mentions, List.map_flatMap]
  congr 1
  funext g
  rw [WeaponGroup.listings, WeaponGroup.mentions, List.map_append, List.map_map, List.map_map]
  rfl

theorem WeaponGroup.mem_mentions {g : WeaponGroup} {m : Mention} (h : m ∈ g.mentions) :
    m.group = g ∧ m.weapon ∈ g.weapons := by
  simp only [mentions, List.mem_append, List.mem_map] at h
  rcases h with ⟨w, hw, rfl⟩ | ⟨w, hw, rfl⟩ <;> simp [weapons, hw]

theorem WeaponGroup.exists_mention {g : WeaponGroup} {w : String} (h : w ∈ g.weapons) :
    ∃ m ∈ g.mentions, m.group = g ∧ m.weapon = w := by
  rcases List.mem_append.mp h with hw | hw
  · exact ⟨⟨g, .infantry, w⟩, by simp [mentions, hw], rfl, rfl⟩
  · exact ⟨⟨g, .vehicle, w⟩, by simp [mentions, hw], rfl, rfl⟩

theorem listedUnder_iff {groups : List WeaponGroup} {f : Faction} {w : String} :
    ListedUnder groups f w ↔ ∃ m ∈ mentions groups, m.group.faction = f ∧ m.weapon = w := by
  constructor
  · rintro ⟨g, hg, hf, hw⟩
    obtain ⟨m, hm, rfl, rfl⟩ := g.exists_mention hw
    exact ⟨m, List.mem_flatMap.mpr ⟨_, hg, hm⟩, hf, rfl⟩
  · rintro ⟨m, hm, hf, rfl⟩
    obtain ⟨g, hg, hmg⟩ := List.mem_flatMap.mp hm
    obtain ⟨rfl, hw⟩ := g.mem_mentions hmg
    exact ⟨_, hg, hf, hw⟩

/-- What is wrong with a mention that comes after some others. -/
inductive Offence (before : List Mention) (m : Mention) : TaxonomyFlaw → Prop
  | blank (h : Text.isBlank m.weapon = true) : Offence before m (.blankWeapon m.group.nation)
  | otherSide {earlier first : Mention} (h : Text.isBlank m.weapon = false)
      (hmem : earlier ∈ before) (hweapon : earlier.weapon = m.weapon)
      (hside : earlier.group.faction ≠ m.group.faction)
      (hfirst : firstMention before m.weapon = some first) :
      Offence before m (.bothFactions m.weapon first.group.faction m.group.faction)

/-- No mention offends against those before it. -/
def Clean (ms : List Mention) : Prop :=
  ∀ before m after, ms = before ++ m :: after → ∀ flaw, ¬ Offence before m flaw

/-- The flaw of the first mention that offends. -/
def FirstOffence (ms : List Mention) (flaw : TaxonomyFlaw) : Prop :=
  ∃ before m after, ms = before ++ m :: after ∧ Clean before ∧ Offence before m flaw

section Mentions

variable {ms before : List Mention} {m : Mention} {w : String}

theorem firstMention_snoc :
    firstMention (ms ++ [m]) w =
      (firstMention ms w).or (if m.weapon = w then some m else none) := by
  simp only [firstMention, List.find?_append, List.find?_singleton, decide_eq_true_eq]

theorem firstMention_eq_none : firstMention ms w = none ↔ ∀ m ∈ ms, m.weapon ≠ w := by
  simp [firstMention]

theorem mem_of_firstMention (h : firstMention ms w = some m) : m ∈ ms ∧ m.weapon = w :=
  ⟨List.mem_of_find?_eq_some h, by simpa using List.find?_some h⟩

theorem exists_firstMention (h : m ∈ ms) : ∃ first, firstMention ms m.weapon = some first := by
  rw [← Option.isSome_iff_exists, Option.isSome_iff_ne_none]
  intro hnone
  exact firstMention_eq_none.mp hnone m h rfl

theorem clean_nil : Clean [] := by
  rintro before m after h
  simp at h

theorem clean_snoc : Clean (ms ++ [m]) ↔ Clean ms ∧ ∀ flaw, ¬ Offence ms m flaw := by
  constructor
  · intro h
    refine ⟨?_, h ms m [] rfl⟩
    rintro before x after rfl
    exact h before x (after ++ [m]) (by simp)
  · rintro ⟨hms, hm⟩ before x after he
    rcases List.eq_nil_or_concat after with rfl | ⟨after, last, rfl⟩
    · obtain ⟨rfl, hx⟩ := List.append_inj' he rfl
      cases hx
      exact hm
    · rw [List.concat_eq_append, ← List.cons_append, ← List.append_assoc] at he
      obtain ⟨rfl, -⟩ := List.append_inj' he rfl
      exact hms before x after rfl

/-- A mention is no offence exactly if it is not blank and no earlier one puts it on the other side. -/
theorem not_offence_iff :
    (∀ flaw, ¬ Offence before m flaw) ↔
      Text.isBlank m.weapon = false ∧
        ∀ earlier ∈ before, earlier.weapon = m.weapon →
          earlier.group.faction = m.group.faction := by
  constructor
  · intro h
    have hblank : Text.isBlank m.weapon = false := by
      by_contra hb
      exact h _ (.blank (by simpa using hb))
    refine ⟨hblank, fun earlier hmem hweapon => ?_⟩
    by_contra hside
    obtain ⟨first, hfirst⟩ := exists_firstMention hmem
    exact h _ (.otherSide hblank hmem hweapon hside (hweapon ▸ hfirst))
  · rintro ⟨hblank, hsides⟩ flaw h
    cases h with
    | blank h => simp [h] at hblank
    | otherSide _ hmem hweapon hside _ => exact hside (hsides _ hmem hweapon)

/-- Clean is a condition on all pairs of mentions, wherever they stand. -/
theorem clean_iff :
    Clean ms ↔ (∀ m ∈ ms, Text.isBlank m.weapon = false) ∧
      ∀ a ∈ ms, ∀ b ∈ ms, a.weapon = b.weapon → a.group.faction = b.group.faction := by
  induction ms using List.reverseRecOn with
  | nil => simp [clean_nil]
  | append_singleton ms m ih =>
    rw [clean_snoc, ih, not_offence_iff]
    simp only [List.mem_append, List.mem_singleton]
    constructor
    · rintro ⟨⟨hblank, hpairs⟩, hm, hside⟩
      refine ⟨?_, ?_⟩
      · rintro x (hx | rfl)
        · exact hblank x hx
        · exact hm
      · rintro a (ha | rfl) b (hb | rfl) hw
        · exact hpairs a ha b hb hw
        · exact hside a ha hw
        · exact (hside b hb hw.symm).symm
        · rfl
    · rintro ⟨hblank, hpairs⟩
      exact ⟨⟨fun x hx => hblank x (.inl hx),
          fun a ha b hb => hpairs a (.inl ha) b (.inl hb)⟩,
        hblank m (.inr rfl), fun a ha => hpairs a (.inl ha) m (.inr rfl)⟩

/-- Where no mention offends, the first mention speaks for all of its identifier. -/
theorem Clean.first_side {first : Mention} (h : Clean ms) (hfirst : firstMention ms w = some first)
    (hm : m ∈ ms) (hw : m.weapon = w) : first.group.faction = m.group.faction := by
  obtain ⟨hmem, hfirstWeapon⟩ := mem_of_firstMention hfirst
  exact (clean_iff.mp h).2 first hmem m hm (hfirstWeapon.trans hw.symm)

theorem clean_or_firstOffence (ms : List Mention) : Clean ms ∨ ∃ flaw, FirstOffence ms flaw := by
  induction ms using List.reverseRecOn with
  | nil => exact .inl clean_nil
  | append_singleton ms m ih =>
    rcases ih with hclean | ⟨flaw, before, x, after, rfl, hbefore, hx⟩
    · by_cases hm : ∃ flaw, Offence ms m flaw
      · obtain ⟨flaw, hm⟩ := hm
        exact .inr ⟨flaw, ms, m, [], rfl, hclean, hm⟩
      · exact .inl (clean_snoc.mpr ⟨hclean, not_exists.mp hm⟩)
    · exact .inr ⟨flaw, before, x, after ++ [m], by simp, hbefore, hx⟩

end Mentions

namespace WeaponIndex

/-- An index that has for every identifier what its first mention says. It forgets the rest, so a
conflict is noticed only because all mentions before it agree with the first. -/
def Knows (index : WeaponIndex) (ms : List Mention) : Prop :=
  ∀ w, index[w]? = (firstMention ms w).map Mention.entry

variable {index : WeaponIndex} {ms : List Mention} {m : Mention}

theorem knows_empty : Knows ∅ [] := by
  intro w
  simp [firstMention]

theorem Knows.getElem? {w : String} (h : index.Knows ms) (hfirst : firstMention ms w = some m) :
    index[w]? = some m.entry := by
  rw [h, hfirst, Option.map_some]

/-- A mention without offence is taken up, whether it is the first of its identifier or not. -/
theorem add_ok (h : index.Knows ms) (hm : ∀ flaw, ¬ Offence ms m flaw) :
    ∃ index', index.add m.listing = .ok index' ∧ index'.Knows (ms ++ [m]) := by
  obtain ⟨hblank, hsides⟩ := not_offence_iff.mp hm
  cases hfirst : firstMention ms m.weapon with
  | none =>
    have hfresh : index[m.weapon]? = none := by rw [h, hfirst, Option.map_none]
    refine ⟨index.insert m.weapon m.entry, ?_, ?_⟩
    · simp [add, Mention.listing, hblank, hfresh]
    · intro w
      rw [Std.TreeMap.getElem?_insert, firstMention_snoc, h]
      by_cases hw : m.weapon = w
      · subst hw
        simp [hfirst]
      · simp [hw]
  | some first =>
    -- The index stays as it is, and so does the first mention of every identifier.
    obtain ⟨hmem, hweapon⟩ := mem_of_firstMention hfirst
    have hknown := h.getElem? hfirst
    have hside : first.entry.faction = m.entry.faction := hsides first hmem hweapon
    refine ⟨index, ?_, ?_⟩
    · simp [add, Mention.listing, hblank, hknown, hside]
    · intro w
      rw [h, firstMention_snoc]
      by_cases hw : m.weapon = w
      · subst hw
        simp [hfirst]
      · simp [hw]

/-- An offence is reported. The index names the first mention, which is on the other side because
the mentions before it are clean. -/
theorem add_error {flaw : TaxonomyFlaw} (h : index.Knows ms) (hclean : Clean ms)
    (hm : Offence ms m flaw) : index.add m.listing = .error flaw := by
  cases hm with
  | blank hblank => simp [add, Mention.listing, Mention.entry, hblank]
  | @otherSide earlier first hblank hmem hweapon hside hfirst =>
    have hagree := hclean.first_side hfirst hmem hweapon
    have hknown := h.getElem? hfirst
    have hne : first.entry.faction ≠ m.entry.faction := by
      intro he
      exact hside (hagree.symm.trans he)
    simp only [add, Mention.listing, hblank, hknown, hne, Bool.false_eq_true, ↓reduceIte]
    rfl

theorem ofListings_of_clean (h : Clean ms) :
    ∃ index, ofListings (ms.map Mention.listing) = .ok index ∧ index.Knows ms := by
  induction ms using List.reverseRecOn with
  | nil => exact ⟨∅, rfl, knows_empty⟩
  | append_singleton ms m ih =>
    obtain ⟨hms, hm⟩ := clean_snoc.mp h
    obtain ⟨index, hrun, hknows⟩ := ih hms
    obtain ⟨index', hadd, hknows'⟩ := add_ok hknows hm
    refine ⟨index', ?_, hknows'⟩
    rw [ofListings] at hrun ⊢
    simp only [List.map_append, List.foldlM_append, hrun, List.map_cons, List.map_nil,
      List.foldlM_cons, List.foldlM_nil, bind, Except.bind, hadd]
    rfl

/-- The first offence ends the run, whatever comes after it. -/
theorem ofListings_of_firstOffence {flaw : TaxonomyFlaw} (h : FirstOffence ms flaw) :
    ofListings (ms.map Mention.listing) = .error flaw := by
  obtain ⟨before, m, after, rfl, hclean, hm⟩ := h
  obtain ⟨index, hrun, hknows⟩ := ofListings_of_clean hclean
  rw [ofListings] at hrun ⊢
  simp only [List.map_append, List.foldlM_append, hrun, List.map_cons, List.foldlM_cons, bind,
    Except.bind, add_error hknows hclean hm]

theorem ofListings_eq_ok {index : WeaponIndex}
    (h : ofListings (ms.map Mention.listing) = .ok index) : Clean ms ∧ index.Knows ms := by
  rcases clean_or_firstOffence ms with hclean | ⟨flaw, hfirst⟩
  · obtain ⟨index', hrun, hknows⟩ := ofListings_of_clean hclean
    cases h.symm.trans hrun
    exact ⟨hclean, hknows⟩
  · cases h.symm.trans (ofListings_of_firstOffence hfirst)

theorem Knows.isEmpty_iff (h : index.Knows ms) : index.isEmpty = true ↔ ms = [] := by
  rw [Std.TreeMap.isEmpty_iff_forall_not_mem]
  constructor
  · intro hempty
    refine List.eq_nil_iff_forall_not_mem.mpr (fun m hm => ?_)
    obtain ⟨first, hfirst⟩ := exists_firstMention hm
    refine hempty m.weapon (Std.TreeMap.mem_iff_isSome_getElem?.mpr ?_)
    rw [h.getElem? hfirst, Option.isSome_some]
  · rintro rfl w hw
    rw [Std.TreeMap.mem_iff_isSome_getElem?, h] at hw
    simp [firstMention] at hw

end WeaponIndex

end Allegiance
