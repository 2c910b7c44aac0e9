import Allegiance.Proofs.EarlyExit
import Allegiance.Proofs.Entries
import Allegiance.Proofs.Ranking

namespace Allegiance

def Taxonomy.knows (t : Taxonomy) (e : String × UInt32) : Bool := (t.factionOf e.1).isSome

namespace Usage

/-- The entries of weapons that a taxonomy knows, in their order. -/
def recognized (u : Usage) (t : Taxonomy) : Entries := u.toList.filter t.knows

def withoutUnknown (u : Usage) (t : Taxonomy) : Usage := .ofList (u.recognized t)

theorem toList_withoutUnknown (u : Usage) (t : Taxonomy) :
    (u.withoutUnknown t).toList = u.recognized t := by
  apply toList_ofList
  exact u.nodup_names.sublist (List.filter_sublist.map Prod.fst)

theorem recognized_withoutUnknown (u : Usage) (t : Taxonomy) :
    (u.withoutUnknown t).recognized t = u.recognized t := by
  rw [recognized, toList_withoutUnknown, recognized, List.filter_filter]
  simp

end Usage

section Recognized

variable {t : Taxonomy} {tuning : Tuning} {total : UInt32} {u v : Usage} {f : Faction}

/-- A weapon that is not known is of no side. -/
theorem sideKills_filter_knows (es : Entries) :
    sideKills t.factionOf f (es.filter t.knows) = sideKills t.factionOf f es := by
  apply sideKills_filter
  intro e _ hs
  simp [Taxonomy.knows, hs]

theorem sideKills_eq_of_recognized (h : v.recognized t = u.recognized t) :
    v.sideKills t f = u.sideKills t f := by
  rw [Usage.sideKills, Usage.sideKills, ← sideKills_filter_knows v.toList,
    ← sideKills_filter_knows u.toList]
  exact congrArg (sideKills t.factionOf f) h

/-- The first side to have enough stays the first: each of its entries stands after the same kills. -/
theorem firstToReach_of_recognized {enough : Nat → Prop}
    (hmono : ∀ {a b}, enough a → a ≤ b → enough b) (h : v.recognized t = u.recognized t)
    (hfirst : FirstToReach t.factionOf enough f u.byCountDesc) :
    FirstToReach t.factionOf enough f v.byCountDesc := by
  have hranked : v.byCountDesc.filter t.knows = u.byCountDesc.filter t.knows := by
    rw [Usage.byCountDesc_eq, Usage.byCountDesc_eq, ranked_filter, ranked_filter]
    exact congrArg ranked h
  apply hfirst.of_split hmono
  intro before' e after' hu he
  obtain ⟨before, after, hv, hknown⟩ :=
    exists_split_of_filter hranked hu (by simp [Taxonomy.knows, he])
  have hsum : ∀ g, sideKills t.factionOf g before = sideKills t.factionOf g before' := by
    intro g
    rw [← sideKills_filter_knows before, hknown, sideKills_filter_knows before']
  exact ⟨before, after, hv, hsum f, (hsum f.opponent).le⟩

theorem classify_eq_of_recognized (hratio : tuning.RatioAbove 0) (hpos : 0 < total)
    (h : v.recognized t = u.recognized t) :
    classify t tuning total v = classify t tuning total u := by
  rcases classify_outcome (t := t) (u := u) hratio hpos with ⟨f, hf, hfirst⟩ | ⟨hnone, hlabel⟩
  · rw [hf]
    apply (classify_eq_label_iff hratio hpos f).mpr
    exact firstToReach_of_recognized (fun ha hab => ha.mono hab) h hfirst
  · have hnone' : ∀ g, ¬ tuning.MetBy total (v.sideKills t g) := by
      intro g
      rw [sideKills_eq_of_recognized h]
      exact hnone g
    rw [hlabel, classify_eq_undecided hratio hpos hnone', sideKills_eq_of_recognized h,
      sideKills_eq_of_recognized h]

/-- Where more is asked for, a label that names no side stays. -/
theorem classify_eq_of_le {tuning' : Tuning} {total' : UInt32} (hratio : tuning.RatioAbove 0)
    (hpos : 0 < total) (hratio' : tuning'.RatioAbove 0)
    (hle : tuning.thresholdRatio.le tuning'.thresholdRatio = true) (htotal : total ≤ total')
    (h : (classify t tuning total u).isDecisive = false) :
    classify t tuning' total' u = classify t tuning total u := by
  have hpos' : 0 < total' := UInt32.lt_of_lt_of_le hpos htotal
  rcases classify_outcome (t := t) (u := u) hratio hpos with ⟨f, hf, _⟩ | ⟨hnone, hlabel⟩
  · rw [hf, Label.isDecisive, Label.faction?_label] at h
    cases h
  · have hnone' : ∀ g, ¬ tuning'.MetBy total' (u.sideKills t g) := by
      intro g hg
      exact hnone g (hg.of_le hratio hratio' hle htotal)
    rw [classify_eq_undecided hratio' hpos' hnone', hlabel]

end Recognized

/-- Kills that no side counts only dilute. Entries of weapons that the taxonomy does not know change
nothing, wherever they stand; and with more kills in all, or a greater ratio, a label that names no
side stays. -/
theorem classify_diluted (t : Taxonomy) (tuning : Tuning) (total : UInt32) (u : Usage)
    (hratio : tuning.RatioAbove 0) (hpos : 0 < total) :
    classify t tuning total (u.withoutUnknown t) = classify t tuning total u ∧
    (∀ v : Usage, v.recognized t = u.recognized t →
      classify t tuning total v = classify t tuning total u) ∧
    (∀ (tuning' : Tuning) (total' : UInt32), tuning'.RatioAbove 0 →
      tuning.thresholdRatio.le tuning'.thresholdRatio = true → total ≤ total' →
      (classify t tuning total u).isDecisive = false →
      classify t tuning' total' u = classify t tuning total u) := by
  have hsame : ∀ v : Usage, v.recognized t = u.recognized t →
      classify t tuning total v = classify t tuning total u :=
    fun v h => classify_eq_of_recognized hratio hpos h
  refine ⟨hsame _ (u.recognized_withoutUnknown t), hsame, ?_⟩
  intro tuning' total' hratio' hle htotal h
  exact classify_eq_of_le hratio hpos hratio' hle htotal h

/-- Four kills for each side, with others before, between and after them. -/
def dilutedTie : Usage :=
  .ofList [("KNIFE", 9), ("M1 GARAND", 4), ("BAYONET", 4), ("MP40", 4), ("SATCHEL", 0)]

/-- The tie goes to the side entered first, whatever stands around it; and where it is a mixed record,
it stays one when all the kills, and twice as many of them, are asked for. -/
theorem classify_diluted_tie :
    Tuning.standard.RatioAbove 0 ∧ (0 : UInt32) < 4 ∧
      dilutedTie.recognized twoWeapons = tied.recognized twoWeapons ∧
      classify twoWeapons .standard 4 dilutedTie = .allies ∧
      classify twoWeapons .standard 10 tied = .mixed ∧
      Tuning.RatioAbove ⟨1, .legacy⟩ 0 ∧ classify twoWeapons ⟨1, .legacy⟩ 20 tied = .mixed := by
  have hratio := Tuning.standard_ratioAbove
  have hwhole : Tuning.RatioAbove ⟨1, .legacy⟩ 0 :=
    Tuning.ratioAbove_zero_iff.mpr (by decide +kernel)
  have hknown : dilutedTie.recognized twoWeapons = tied.recognized twoWeapons := by
    decide +kernel
  have hmixed : classify twoWeapons .standard 10 tied = .mixed := by
    rw [classify_of_pairwise (by decide) (by decide +kernel)]
    decide +kernel
  obtain ⟨_, hadded, _⟩ := classify_diluted twoWeapons .standard 4 tied hratio (by decide)
  obtain ⟨_, _, hraised⟩ := classify_diluted twoWeapons .standard 10 tied hratio (by decide)
  refine ⟨hratio, by decide, hknown, ?_, hmixed, hwhole, ?_⟩
  · rw [hadded dilutedTie hknown, classify_tied]
  · rw [hraised ⟨1, .legacy⟩ 20 hwhole (by decide +kernel) (by decide) (by rw [hmixed]; rfl),
      hmixed]

end Allegiance
