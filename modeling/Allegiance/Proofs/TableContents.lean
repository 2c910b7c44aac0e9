import Mathlib.Data.Finset.Card
import Mathlib.Logic.Relation
import Allegiance.Classification.Walk
import Allegiance.Proofs.Acceptance

namespace Allegiance

def identifiers (groups : List WeaponGroup) : List String := groups.flatMap WeaponGroup.weapons

/-- What the index of a taxonomy has to say of some groups. -/
structure Taxonomy.Reports (t : Taxonomy) (groups : List WeaponGroup) : Prop where
  side : ∀ w f, t.factionOf w = some f ↔ ListedUnder groups f w
  unlisted : ∀ w, t.factionOf w = none ↔ ∀ g ∈ groups, w ∉ g.weapons
  entry : ∀ w e, t.lookup w = some e ↔
    t.factionOf w = some e.faction ∧
      ∃ m, firstMention (mentions groups) w = some m ∧ e.nation = m.group.nation ∧ e.kind = m.kind
  size : t.size = (identifiers groups).toFinset.card
  count : ∀ f, t.count f = (identifiers (groups.filter (fun g => g.faction = f))).toFinset.card
  sides : t.count .axis + t.count .allies = t.size

/-- Two taxonomies that put the same weapons on the same sides, and so label everyone alike. -/
structure Taxonomy.Agrees (t t' : Taxonomy) : Prop where
  factionOf : ∀ w, t.factionOf w = t'.factionOf w
  size : t.size = t'.size
  count : ∀ f, t.count f = t'.count f
  label : ∀ tuning total usage, classify t tuning total usage = classify t' tuning total usage

namespace WeaponGroup

def put (g : WeaponGroup) (w : String) : WeaponKind → WeaponGroup
  | .infantry => { g with infantry := w :: g.infantry }
  | .vehicle => { g with vehicles := w :: g.vehicles }

@[simp] theorem put_faction (g : WeaponGroup) (w : String) (kind : WeaponKind) :
    (g.put w kind).faction = g.faction := by
  cases kind <;> rfl

theorem mem_put {g : WeaponGroup} {w v : String} {kind : WeaponKind} :
    v ∈ (g.put w kind).weapons ↔ v = w ∨ v ∈ g.weapons := by
  cases kind
  · simp [put, weapons]
  · simp only [put, weapons, List.mem_append, List.mem_cons]
    exact or_left_comm

end WeaponGroup

/-- One change to the groups that moves no identifier to another side: a permutation of the groups,
one of the lists of a group, an identifier listed again by a group of its side, or one moved between
the two lists of its group. -/
inductive Rearranged : List WeaponGroup → List WeaponGroup → Prop
  | groups {gs gs' : List WeaponGroup} (h : gs.Perm gs') : Rearranged gs gs'
  | lists {before after : List WeaponGroup} {g : WeaponGroup} {infantry vehicles : List String}
      (hi : g.infantry.Perm infantry) (hv : g.vehicles.Perm vehicles) :
      Rearranged (before ++ g :: after)
        (before ++ { g with infantry := infantry, vehicles := vehicles } :: after)
  | again {before after : List WeaponGroup} {g : WeaponGroup} {w : String} (kind : WeaponKind)
      (h : ListedUnder (before ++ g :: after) g.faction w) :
      Rearranged (before ++ g :: after) (before ++ g.put w kind :: after)
  | moved {before after : List WeaponGroup} {g : WeaponGroup} {w : String}
      (kind kind' : WeaponKind) :
      Rearranged (before ++ g.put w kind :: after) (before ++ g.put w kind' :: after)

section ListedUnder

variable {gs gs' before after : List WeaponGroup} {g g' : WeaponGroup} {f : Faction} {w : String}

theorem listedUnder_append_cons :
    ListedUnder (before ++ g :: after) f w ↔
      ListedUnder (before ++ after) f w ∨ g.faction = f ∧ w ∈ g.weapons := by
  simp only [ListedUnder, List.mem_append, List.mem_cons]
  constructor
  · rintro ⟨x, hx | rfl | hx, h⟩
    · exact .inl ⟨x, .inl hx, h⟩
    · exact .inr h
    · exact .inl ⟨x, .inr hx, h⟩
  · rintro (⟨x, hx | hx, h⟩ | h)
    · exact ⟨x, .inl hx, h⟩
    · exact ⟨x, .inr (.inr hx), h⟩
    · exact ⟨g, .inr (.inl rfl), h⟩

theorem Rearranged.listedUnder_iff (h : Rearranged gs gs') :
    ListedUnder gs' f w ↔ ListedUnder gs f w := by
  cases h with
  | groups h => simp only [ListedUnder, h.mem_iff]
  | lists hi hv =>
    rw [listedUnder_append_cons, listedUnder_append_cons]
    simp only [WeaponGroup.weapons, List.mem_append, hi.mem_iff, hv.mem_iff]
  | @again before after g v kind hlisted =>
    rw [listedUnder_append_cons, WeaponGroup.put_faction, WeaponGroup.mem_put]
    constructor
    · rintro (h | ⟨rfl, rfl | h⟩)
      · exact listedUnder_append_cons.mpr (.inl h)
      · exact hlisted
      · exact listedUnder_append_cons.mpr (.inr ⟨rfl, h⟩)
    · intro h
      exact (listedUnder_append_cons.mp h).imp_right (And.imp_right .inr)
  | moved kind kind' =>
    rw [listedUnder_append_cons, listedUnder_append_cons]
    simp only [WeaponGroup.put_faction, WeaponGroup.mem_put]

theorem listedUnder_iff_of_rearrangements (h : Relation.ReflTransGen Rearranged gs gs') :
    ListedUnder gs' f w ↔ ListedUnder gs f w := by
  induction h with
  | refl => rfl
  | tail _ hstep ih => exact hstep.listedUnder_iff.trans ih

theorem mem_identifiers : w ∈ identifiers gs ↔ ∃ f, ListedUnder gs f w := by
  simp only [identifiers, List.mem_flatMap, ListedUnder]
  constructor
  · rintro ⟨g, hg, hw⟩
    exact ⟨g.faction, g, hg, rfl, hw⟩
  · rintro ⟨f, g, hg, -, hw⟩
    exact ⟨g, hg, hw⟩

theorem mem_identifiers_filter :
    w ∈ identifiers (gs.filter (fun g => g.faction = f)) ↔ ListedUnder gs f w := by
  simp only [identifiers, List.mem_flatMap, List.mem_filter, decide_eq_true_eq, ListedUnder,
    and_assoc]

theorem Unambiguous.congr {version : String} (h : Unambiguous version gs)
    (hsame : ∀ f w, ListedUnder gs' f w ↔ ListedUnder gs f w) : Unambiguous version gs' where
  named := h.named
  listed := by simpa only [hsame] using h.listed
  noBlank := by simpa only [hsame] using h.noBlank
  oneSide := by simpa only [hsame] using h.oneSide

end ListedUnder

namespace WeaponIndex

theorem values_eq (index : WeaponIndex) : index.values = index.toList.map Prod.snd := by
  change index.foldr (fun _ v vs => v :: vs) [] = _
  rw [Std.TreeMap.foldr_eq_foldr_toList, List.foldr_cons_eq_append, List.append_nil]

theorem nodup_keys_filter (index : WeaponIndex) (p : WeaponEntry → Bool) :
    ((index.toList.filter (fun x => p x.2)).map Prod.fst).Nodup := by
  have hdistinct : (index.toList.map Prod.fst).Nodup :=
    List.pairwise_map.mpr (Std.TreeMap.distinct_keys_toList.imp (fun h he =>
      h (Std.LawfulEqCmp.compare_eq_iff_eq.mpr he)))
  exact hdistinct.sublist (List.filter_sublist.map Prod.fst)

/-- Counting entries is counting identifiers, because the index has each of them once. -/
theorem countP_values {index : WeaponIndex} {p : WeaponEntry → Bool} {s : Finset String}
    (h : ∀ w, w ∈ s ↔ ∃ e, index[w]? = some e ∧ p e = true) : index.values.countP p = s.card := by
  have hs : s = ((index.toList.filter (fun x => p x.2)).map Prod.fst).toFinset := by
    ext w
    simp [h, Std.TreeMap.mem_toList_iff_getElem?_eq_some]
  rw [hs, List.toFinset_card_of_nodup (index.nodup_keys_filter p), List.length_map, values_eq,
    List.countP_map, List.countP_eq_length_filter]
  rfl

theorem length_values (index : WeaponIndex) : index.values.length = index.size := by
  rw [values_eq, List.length_map, Std.TreeMap.length_toList]

end WeaponIndex

namespace Taxonomy

variable {version : String} {groups groups' : List WeaponGroup} {t t' : Taxonomy}

theorem count_add_count (t : Taxonomy) : t.count .axis + t.count .allies = t.size := by
  rw [size, ← WeaponIndex.length_values,
    List.length_eq_countP_add_countP (fun e : WeaponEntry => decide (e.faction = .axis))]
  congr 1
  refine List.countP_congr (fun e _ => ?_)
  cases e.faction <;> simp

/-- An unambiguous weapon is on the side of its first mention. -/
theorem factionOf_eq_some_iff (haccepted : Unambiguous version groups)
    (hknows : t.index.Knows (mentions groups)) {w : String} {f : Faction} :
    t.factionOf w = some f ↔ ListedUnder groups f w := by
  rw [factionOf, lookup, hknows, Option.map_map, Option.map_eq_some_iff, listedUnder_iff]
  constructor
  · rintro ⟨m, hfirst, hf⟩
    obtain ⟨hmem, hw⟩ := mem_of_firstMention hfirst
    exact ⟨m, hmem, hf, hw⟩
  · rintro ⟨m, hmem, hf, rfl⟩
    obtain ⟨first, hfirst⟩ := exists_firstMention hmem
    obtain ⟨-, -, hclean⟩ := unambiguous_iff.mp haccepted
    exact ⟨first, hfirst, (hclean.first_side hfirst hmem rfl).trans hf⟩

theorem factionOf_eq_none_iff (h : ∀ w f, t.factionOf w = some f ↔ ListedUnder groups f w)
    {w : String} : t.factionOf w = none ↔ ∀ g ∈ groups, w ∉ g.weapons := by
  rw [Option.eq_none_iff_forall_ne_some]
  constructor
  · intro hnone g hg hw
    exact hnone g.faction ((h w g.faction).mpr ⟨g, hg, rfl, hw⟩)
  · rintro hnone f hf
    obtain ⟨g, hg, -, hw⟩ := (h w f).mp hf
    exact hnone g hg hw

theorem lookup_eq_some_iff (hknows : t.index.Knows (mentions groups)) {w : String}
    {e : WeaponEntry} :
    t.lookup w = some e ↔ t.factionOf w = some e.faction ∧
      ∃ m, firstMention (mentions groups) w = some m ∧ e.nation = m.group.nation ∧
        e.kind = m.kind := by
  rw [factionOf, lookup, hknows]
  cases firstMention (mentions groups) w with
  | none => simp
  | some m =>
    obtain ⟨faction, nation, kind⟩ := e
    simp only [Option.map_some, Option.some.injEq, Mention.entry, WeaponEntry.mk.injEq,
      exists_eq_left']
    constructor
    · rintro ⟨rfl, rfl, rfl⟩
      exact ⟨rfl, rfl, rfl⟩
    · rintro ⟨rfl, rfl, rfl⟩
      exact ⟨rfl, rfl, rfl⟩

theorem size_eq (h : ∀ w f, t.factionOf w = some f ↔ ListedUnder groups f w) :
    t.size = (identifiers groups).toFinset.card := by
  rw [size, ← WeaponIndex.length_values, ← List.countP_true]
  refine WeaponIndex.countP_values (fun w => ?_)
  rw [List.mem_toFinset, mem_identifiers]
  simp only [← h, factionOf, lookup, Option.map_eq_some_iff, and_true]
  exact ⟨fun ⟨_, e, he, _⟩ => ⟨e, he⟩, fun ⟨e, he⟩ => ⟨e.faction, e, he, rfl⟩⟩

theorem count_eq (h : ∀ w f, t.factionOf w = some f ↔ ListedUnder groups f w) (f : Faction) :
    t.count f = (identifiers (groups.filter (fun g => g.faction = f))).toFinset.card := by
  refine WeaponIndex.countP_values (fun w => ?_)
  rw [List.mem_toFinset, mem_identifiers_filter, ← h, factionOf, lookup, Option.map_eq_some_iff]
  simp only [decide_eq_true_eq]

theorem reports_of_ofGroups (h : ofGroups version groups = .ok t) : t.Reports groups := by
  obtain ⟨haccepted, -, -, hknows⟩ := ofGroups_eq_ok h
  have hfaction : ∀ w f, t.factionOf w = some f ↔ ListedUnder groups f w :=
    fun w f => factionOf_eq_some_iff haccepted hknows
  exact
    { side := hfaction
      unlisted := fun w => factionOf_eq_none_iff hfaction
      entry := fun w e => lookup_eq_some_iff hknows
      size := size_eq hfaction
      count := count_eq hfaction
      sides := t.count_add_count }

theorem Reports.agrees (h : t.Reports groups) (h' : t'.Reports groups')
    (hsame : ∀ f w, ListedUnder groups' f w ↔ ListedUnder groups f w) : t'.Agrees t := by
  have hfaction : t'.factionOf = t.factionOf := by
    funext w
    exact Option.ext (fun f => (h'.side w f).trans ((hsame f w).trans (h.side w f).symm))
  have hsize : t'.size = t.size := by
    rw [h.size, h'.size]
    congr 1
    ext w
    simp only [List.mem_toFinset, mem_identifiers, hsame]
  have hcount : ∀ f, t'.count f = t.count f := by
    intro f
    rw [h.count, h'.count]
    congr 1
    ext w
    simp only [List.mem_toFinset, mem_identifiers_filter, hsame]
  exact
    { factionOf := fun w => congrFun hfaction w
      size := hsize
      count := hcount
      label := fun tuning total usage => by simp only [classify, hfaction] }

/-- The index of an accepted taxonomy says what its groups say: sides and counts depend only on
which identifiers each side lists, so groups may be rearranged without any label changing; nation
and kind are those of the first mention. -/
theorem ofGroups_reports (h : ofGroups version groups = .ok t) :
    t.Reports groups ∧
      ∀ groups', Relation.ReflTransGen Rearranged groups groups' →
        ∃ t', ofGroups version groups' = .ok t' ∧ t'.Agrees t := by
  refine ⟨reports_of_ofGroups h, fun groups' hmoves => ?_⟩
  have hsame : ∀ f w, ListedUnder groups' f w ↔ ListedUnder groups f w :=
    fun f w => listedUnder_iff_of_rearrangements hmoves
  obtain ⟨t', ht'⟩ := exists_ofGroups ((ofGroups_eq_ok h).1.congr hsame)
  exact ⟨t', ht', (reports_of_ofGroups h).agrees (reports_of_ofGroups ht') hsame⟩

def germany : WeaponGroup := ⟨"germany", .axis, ["MP40"], []⟩

def italy : WeaponGroup := ⟨"italy", .axis, ["BERETTA 38"], []⟩

def sovietUnion : WeaponGroup := ⟨"soviet_union", .allies, [], ["T-34"]⟩

def threeNations : List WeaponGroup := [germany, italy, sovietUnion]

def threeNationsRearranged : List WeaponGroup :=
  [⟨"soviet_union", .allies, ["T-34"], []⟩, italy.put "MP40" .vehicle, germany]

theorem rearranged_threeNations :
    Relation.ReflTransGen Rearranged threeNations threeNationsRearranged := by
  have hshare : Rearranged threeNations [germany, italy.put "MP40" .vehicle, sovietUnion] :=
    @Rearranged.again [germany] [sovietUnion] italy "MP40" .vehicle
      ⟨germany, by simp, rfl, by simp [germany, WeaponGroup.weapons]⟩
  have hmove : Rearranged [germany, italy.put "MP40" .vehicle, sovietUnion]
      [germany, italy.put "MP40" .vehicle, ⟨"soviet_union", .allies, ["T-34"], []⟩] :=
    @Rearranged.moved [germany, italy.put "MP40" .vehicle] [] ⟨"soviet_union", .allies, [], []⟩
      "T-34" .vehicle .infantry
  exact ((Relation.ReflTransGen.single hshare).tail hmove).tail
    (.groups (List.reverse_perm _).symm)

theorem ofGroups_reports_threeNations :
    ∃ t, ofGroups "1" threeNations = .ok t ∧ t.Reports threeNations ∧
      ∃ t', ofGroups "1" threeNationsRearranged = .ok t' ∧ t'.Agrees t := by
  have hok : (ofGroups "1" threeNations).toBool = true := by decide +kernel
  cases h : ofGroups "1" threeNations with
  | error flaw => simp [h, Except.toBool] at hok
  | ok t =>
    obtain ⟨hreports, hmoves⟩ := ofGroups_reports h
    exact ⟨t, rfl, hreports, hmoves _ rearranged_threeNations⟩

end Taxonomy

end Allegiance
