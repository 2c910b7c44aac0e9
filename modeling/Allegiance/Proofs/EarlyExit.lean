import Allegiance.Match.Stats
import Allegiance.Proofs.RunningSums
import Allegiance.Proofs.Threshold

namespace Allegiance

namespace Usage

def sideKills (u : Usage) (t : Taxonomy) (f : Faction) : Nat :=
  Allegiance.sideKills t.factionOf f u.toList

def kills (u : Usage) : Nat := allKills u.toList

theorem byCountDesc_perm (u : Usage) : u.byCountDesc.Perm u.toList := List.mergeSort_perm _ _

/-- Entries in order stay as they are. -/
theorem byCountDesc_of_pairwise {u : Usage} (h : u.toList.Pairwise (fun a b => b.2 ≤ a.2)) :
    u.byCountDesc = u.toList :=
  List.mergeSort_of_pairwise (h.imp (by simp))

theorem sideKills_byCountDesc (u : Usage) (t : Taxonomy) (f : Faction) :
    Allegiance.sideKills t.factionOf f u.byCountDesc = u.sideKills t f :=
  sideKills_perm u.byCountDesc_perm

theorem sideKills_add_le_kills (u : Usage) (t : Taxonomy) :
    u.sideKills t .axis + u.sideKills t .allies ≤ u.kills :=
  sideKills_add_le _ _

theorem toNat_foldl_add (es : Entries) (sum : UInt64) :
    (es.foldl (fun sum e => sum + e.2.toUInt64) sum).toNat =
      (sum.toNat + allKills es) % 2 ^ 64 := by
  induction es generalizing sum with
  | nil => exact (Nat.mod_eq_of_lt sum.toNat_lt).symm
  | cons e es ih =>
    rw [List.foldl_cons, ih, allKills_cons, UInt64.toNat_add, UInt32.toNat_toUInt64, Nat.mod_add_mod,
      Nat.add_assoc]

theorem toNat_total_mod (u : Usage) : u.total.toNat = u.kills % 2 ^ 64 := by
  rw [total, ← Array.foldl_toList]
  have hsum := toNat_foldl_add u.toList 0
  rw [UInt64.toNat_zero, Nat.zero_add] at hsum
  exact hsum

/-- The sum that the program keeps in a word is the sum, unless it does not fit the word. -/
theorem toNat_total {u : Usage} (h : u.kills < 2 ^ 64) : u.total.toNat = u.kills := by
  rw [toNat_total_mod, Nat.mod_eq_of_lt h]

end Usage

theorem KillRecord.isConsistent_iff {r : KillRecord} (h : r.usage.kills < 2 ^ 64) :
    r.isConsistent = true ↔ r.usage.kills ≤ r.totalKills.toNat := by
  simp [isConsistent, UInt64.le_iff_toNat_le, Usage.toNat_total h]

theorem Faction.label_ne_mixed (f : Faction) : f.label ≠ .mixed := by cases f <;> decide

theorem Faction.label_ne_unknown (f : Faction) : f.label ≠ .unknown := by cases f <;> decide

section Outcome

variable {t : Taxonomy} {tuning : Tuning} {total : UInt32} {u : Usage}

theorem classify_of_pos (hpos : 0 < total) : classify t tuning total u =
    walk t.factionOf (tuning.threshold total) u.byCountDesc .empty := by
  rw [classify, if_neg (fun h => UInt32.pos_iff_ne_zero.mp hpos h.1)]

/-- What the walk over the ranked weapons comes to, said of the sums of the whole usage. -/
theorem classify_outcome (hratio : tuning.RatioAbove 0) (hpos : 0 < total) :
    (∃ f, classify t tuning total u = f.label ∧
      FirstToReach t.factionOf (tuning.MetBy total) f u.byCountDesc) ∨
    ((∀ f, ¬ tuning.MetBy total (u.sideKills t f)) ∧
      classify t tuning total u = undecided (u.sideKills t .axis) (u.sideKills t .allies)) := by
  have hsmall : ∀ n, ¬ tuning.MetBy total n → n < 2 ^ 32 := fun n hn =>
    lt_of_lt_of_le (Tuning.lt_total_of_not_metBy hratio hpos hn) total.toNat_lt.le
  have h := walk_outcome (Tuning.reaches_iff hratio hpos) hsmall u.byCountDesc [] .empty
    (Tally.counts_empty t.factionOf) (fun _ => Tuning.not_metBy_zero hratio hpos)
  simp only [List.nil_append, Usage.sideKills_byCountDesc] at h
  rwa [classify_of_pos hpos]

theorem metBy_of_firstToReach {f : Faction}
    (h : FirstToReach t.factionOf (tuning.MetBy total) f u.byCountDesc) :
    tuning.MetBy total (u.sideKills t f) := by
  have := h.enough_all (fun ha hab => ha.mono hab)
  rwa [Usage.sideKills_byCountDesc] at this

theorem undecided_ne_label (axis allies : Nat) (f : Faction) : undecided axis allies ≠ f.label := by
  simp only [undecided]
  split
  · exact f.label_ne_mixed.symm
  · exact f.label_ne_unknown.symm

theorem classify_of_pairwise (hpos : 0 < total)
    (h : u.toList.Pairwise (fun a b => b.2 ≤ a.2)) :
    classify t tuning total u = walk t.factionOf (tuning.threshold total) u.toList .empty := by
  rw [classify_of_pos hpos, Usage.byCountDesc_of_pairwise h]

/-- The label names a side exactly if that side is the first to have enough. -/
theorem classify_eq_label_iff (hratio : tuning.RatioAbove 0) (hpos : 0 < total) (f : Faction) :
    classify t tuning total u = f.label ↔
      FirstToReach t.factionOf (tuning.MetBy total) f u.byCountDesc := by
  rcases classify_outcome (t := t) (u := u) hratio hpos with ⟨g, hg, hfirst⟩ | ⟨hnone, hlabel⟩
  · rw [hg]
    constructor
    · intro h
      have : g = f := by cases g <;> cases f <;> simp_all [Faction.label]
      exact this ▸ hfirst
    · intro h
      exact congrArg Faction.label (hfirst.unique (fun ha hab => ha.mono hab) h)
  · rw [hlabel]
    constructor
    · intro h
      exact absurd h (undecided_ne_label _ _ f)
    · intro h
      exact absurd (metBy_of_firstToReach h) (hnone f)

theorem exists_firstToReach (hratio : tuning.RatioAbove 0) (hpos : 0 < total) {f : Faction}
    (h : tuning.MetBy total (u.sideKills t f)) :
    ∃ g, classify t tuning total u = g.label ∧
      FirstToReach t.factionOf (tuning.MetBy total) g u.byCountDesc := by
  rcases classify_outcome (t := t) (u := u) hratio hpos with hfirst | ⟨hnone, _⟩
  · exact hfirst
  · exact absurd h (hnone f)

theorem classify_eq_undecided (hratio : tuning.RatioAbove 0) (hpos : 0 < total)
    (hnone : ∀ f, ¬ tuning.MetBy total (u.sideKills t f)) :
    classify t tuning total u = undecided (u.sideKills t .axis) (u.sideKills t .allies) := by
  rcases classify_outcome (t := t) (u := u) hratio hpos with ⟨f, _, hfirst⟩ | ⟨_, hlabel⟩
  · exact absurd (metBy_of_firstToReach hfirst) (hnone f)
  · exact hlabel

end Outcome

/-- A table with one weapon on each side. -/
def twoWeapons : Taxonomy where
  version := "1"
  groups :=
    [⟨"germany", .axis, ["MP40"], []⟩, ⟨"united_states", .allies, ["M1 GARAND"], []⟩]
  index :=
    (∅ : WeaponIndex).insert "MP40" ⟨.axis, "germany", .infantry⟩
      |>.insert "M1 GARAND" ⟨.allies, "united_states", .infantry⟩

theorem Tuning.standard_ratioAbove : Tuning.standard.RatioAbove 0 :=
  Tuning.ratioAbove_zero_iff.mpr (by decide +kernel)

/-- Four kills for each side, those of the Allies entered first. -/
def tied : Usage := .ofList [("M1 GARAND", 4), ("MP40", 4)]

theorem classify_tied : classify twoWeapons .standard 4 tied = .allies := by
  rw [classify_of_pairwise (by decide) (by decide +kernel)]
  decide +kernel

/-- The early exit is sound and complete: a label names a side only if that side has enough in all,
some side is named as soon as one has enough, it is then the first to have it, and where no side has
enough the label tells whether both have any. -/
theorem classify_early_exit (t : Taxonomy) (tuning : Tuning) (total : UInt32) (u : Usage)
    (hratio : tuning.RatioAbove 0) (hpos : 0 < total) :
    ((classify t tuning total u).isDecisive = true ↔
      tuning.MetBy total (u.sideKills t .axis) ∨ tuning.MetBy total (u.sideKills t .allies)) ∧
    (∀ f, classify t tuning total u = f.label → tuning.MetBy total (u.sideKills t f)) ∧
    (∀ f, classify t tuning total u = f.label ↔
      FirstToReach t.factionOf (tuning.MetBy total) f u.byCountDesc) ∧
    (tuning.MetBy total (u.sideKills t .axis) → tuning.MetBy total (u.sideKills t .allies) →
      ∃ f, classify t tuning total u = f.label ∧
        FirstToReach t.factionOf (tuning.MetBy total) f u.byCountDesc) ∧
    (¬ tuning.MetBy total (u.sideKills t .axis) → ¬ tuning.MetBy total (u.sideKills t .allies) →
      classify t tuning total u = undecided (u.sideKills t .axis) (u.sideKills t .allies)) := by
  have hfirst := classify_eq_label_iff (t := t) (u := u) hratio hpos
  refine ⟨⟨?_, ?_⟩, ?_, hfirst, ?_, ?_⟩
  · intro h
    obtain ⟨f, hf⟩ := Option.isSome_iff_exists.mp h
    have hmet := metBy_of_firstToReach ((hfirst f).mp (Label.faction?_eq_some.mp hf))
    cases f with
    | axis => exact .inl hmet
    | allies => exact .inr hmet
  · rintro (h | h)
    all_goals
      obtain ⟨f, hf, _⟩ := exists_firstToReach hratio hpos h
      simp [hf, Label.isDecisive]
  · intro f hf
    exact metBy_of_firstToReach ((hfirst f).mp hf)
  · intro h _
    exact exists_firstToReach hratio hpos h
  · intro haxis hallies
    rcases classify_outcome (t := t) (u := u) hratio hpos with ⟨f, _, hf⟩ | ⟨_, hlabel⟩
    · have := metBy_of_firstToReach hf
      cases f <;> contradiction
    · exact hlabel

/-- A tie at the threshold: both sides have enough in all, and the one entered first is named. -/
theorem classify_early_exit_tie :
    Tuning.standard.RatioAbove 0 ∧ (0 : UInt32) < 4 ∧
      (∀ f, Tuning.standard.MetBy 4 (tied.sideKills twoWeapons f)) ∧
      classify twoWeapons .standard 4 tied = .allies ∧
      FirstToReach twoWeapons.factionOf (Tuning.standard.MetBy 4) .allies tied.byCountDesc := by
  have hratio := Tuning.standard_ratioAbove
  obtain ⟨-, -, hfirst, -⟩ := classify_early_exit twoWeapons .standard 4 tied hratio (by decide)
  refine ⟨hratio, by decide, ?_, classify_tied, (hfirst .allies).mp classify_tied⟩
  intro f
  cases f <;> decide +kernel

/-- The label told by the kills of the two sides in all, Axis first. -/
def fullCount (tuning : Tuning) (total : UInt32) (axis allies : Nat) : Label :=
  if tuning.MetBy total axis then .axis
  else if tuning.MetBy total allies then .allies
  else undecided axis allies

/-- Where the two sides cannot both have enough, stopping early changes nothing. -/
theorem classify_eq_fullCount {t : Taxonomy} {tuning : Tuning} {total : UInt32} {u : Usage}
    (hratio : tuning.RatioAbove 0) (hpos : 0 < total)
    (hboth : ¬ (tuning.MetBy total (u.sideKills t .axis) ∧
      tuning.MetBy total (u.sideKills t .allies))) :
    classify t tuning total u =
      fullCount tuning total (u.sideKills t .axis) (u.sideKills t .allies) := by
  rcases classify_outcome (t := t) (u := u) hratio hpos with ⟨f, hf, hfirst⟩ | ⟨hnone, hlabel⟩
  · have hmet := metBy_of_firstToReach hfirst
    rw [hf]
    cases f with
    | axis => simp [fullCount, hmet, Faction.label]
    | allies =>
      have : ¬ tuning.MetBy total (u.sideKills t .axis) := fun h => hboth ⟨h, hmet⟩
      simp [fullCount, hmet, this, Faction.label]
  · rw [hlabel]
    simp [fullCount, hnone .axis, hnone .allies]

/-- A record with no more kills listed than there were does not give both sides enough. -/
theorem not_metBy_both_of_fits {t : Taxonomy} {tuning : Tuning} {total : UInt32} {u : Usage}
    (hratio : tuning.RatioAbove (1 / 2)) (hpos : 0 < total) (hfit : u.kills ≤ total.toNat) :
    ¬ (tuning.MetBy total (u.sideKills t .axis) ∧ tuning.MetBy total (u.sideKills t .allies)) :=
  Tuning.not_metBy_both hratio hpos (le_trans (u.sideKills_add_le_kills t) hfit)

/-- The label is told by the sums of the two sides alone. -/
structure ToldBySides (t : Taxonomy) (tuning : Tuning) (total : UInt32) (u : Usage) : Prop where
  notBoth :
    ¬ (tuning.MetBy total (u.sideKills t .axis) ∧ tuning.MetBy total (u.sideKills t .allies))
  axis : classify t tuning total u = .axis ↔ tuning.MetBy total (u.sideKills t .axis)
  allies : classify t tuning total u = .allies ↔ tuning.MetBy total (u.sideKills t .allies)
  mixed : classify t tuning total u = .mixed ↔
    ¬ tuning.MetBy total (u.sideKills t .axis) ∧ ¬ tuning.MetBy total (u.sideKills t .allies) ∧
      0 < u.sideKills t .axis ∧ 0 < u.sideKills t .allies
  unknown : classify t tuning total u = .unknown ↔
    ¬ tuning.MetBy total (u.sideKills t .axis) ∧ ¬ tuning.MetBy total (u.sideKills t .allies) ∧
      ¬ (0 < u.sideKills t .axis ∧ 0 < u.sideKills t .allies)
  order : ∀ v : Usage, v.toList.Perm u.toList →
    classify t tuning total v = classify t tuning total u
  spread : ∀ v : Usage, v.kills ≤ total.toNat → (∀ f, v.sideKills t f = u.sideKills t f) →
    classify t tuning total v = classify t tuning total u

/-- With a ratio above one half and no more kills listed than there were, neither the order of the
weapons nor the spread of the kills over the weapons of a side matters. -/
theorem classify_of_fits (t : Taxonomy) (tuning : Tuning) (total : UInt32) (u : Usage)
    (hratio : tuning.RatioAbove (1 / 2)) (hpos : 0 < total) (hfit : u.kills ≤ total.toNat) :
    ToldBySides t tuning total u := by
  have hratio' := hratio.mono (by norm_num : (0 : Rat) ≤ 1 / 2)
  have hboth := not_metBy_both_of_fits (t := t) hratio hpos hfit
  have hcount := classify_eq_fullCount hratio' hpos hboth
  have hspread : ∀ v : Usage, v.kills ≤ total.toNat →
      (∀ f, v.sideKills t f = u.sideKills t f) →
      classify t tuning total v = classify t tuning total u := by
    intro v hv hside
    rw [classify_eq_fullCount hratio' hpos (not_metBy_both_of_fits hratio hpos hv), hcount,
      hside .axis, hside .allies]
  have horder : ∀ v : Usage, v.toList.Perm u.toList →
      classify t tuning total v = classify t tuning total u := by
    intro v hperm
    refine hspread v ?_ (fun f => sideKills_perm hperm)
    exact le_trans (allKills_perm hperm).le hfit
  refine ⟨hboth, ?_, ?_, ?_, ?_, horder, hspread⟩
  all_goals
    rw [hcount]
    simp only [fullCount, undecided]
    split_ifs <;> simp_all

/-- Eight kills of ten are just enough for the standard ratio, though they are entered last. -/
theorem classify_of_fits_eight_of_ten :
    Tuning.standard.RatioAbove (1 / 2) ∧ (0 : UInt32) < 10 ∧
      (Usage.ofList [("M1 GARAND", 2), ("MP40", 8)]).kills ≤ (10 : UInt32).toNat ∧
      classify twoWeapons .standard 10 (.ofList [("M1 GARAND", 2), ("MP40", 8)]) = .axis := by
  have hratio : Tuning.standard.RatioAbove (1 / 2) := by
    refine ⟨⟨false, 7205759403792794, -53, by decide⟩, by decide +kernel, ?_, ?_⟩
    · decide +kernel
    · decide +kernel
  have hfit : (Usage.ofList [("M1 GARAND", 2), ("MP40", 8)]).kills ≤ (10 : UInt32).toNat := by
    decide +kernel
  have h := classify_of_fits twoWeapons .standard 10 _ hratio (by decide) hfit
  exact ⟨hratio, by decide, hfit, h.axis.mpr (by decide +kernel)⟩

end Allegiance
