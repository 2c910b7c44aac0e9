import Mathlib.Data.List.Nodup
import Allegiance.Classification.Walk
import Allegiance.Proofs.Entries
import Allegiance.Proofs.Ranking

namespace Allegiance

def KeepsTies (es es' : List (String × UInt32)) : Prop :=
  es'.Pairwise (fun a b => a.2 = b.2 → [a, b].Sublist es)

instance (es es' : List (String × UInt32)) : Decidable (KeepsTies es es') :=
  inferInstanceAs (Decidable (List.Pairwise _ _))

section Order

variable {α : Type} {a b : α} {xs ys : List α}

/-- Where nothing is repeated, only one of two elements comes before the other. -/
theorem eq_of_before_both (hnodup : xs.Nodup) (hab : [a, b].Sublist xs)
    (hba : [b, a].Sublist xs) : a = b := by
  induction xs with
  | nil => cases hab
  | cons x xs ih =>
    obtain ⟨hx, hxs⟩ := List.nodup_cons.mp hnodup
    cases hab with
    | cons _ hab =>
      cases hba with
      | cons _ hba => exact ih hxs hab hba
      | cons_cons _ _ => exact absurd (hab.subset (by simp)) hx
    | cons_cons _ hb =>
      cases hba with
      | cons _ hba => exact absurd (hba.subset (by simp)) hx
      | cons_cons _ _ => rfl

theorem eq_of_same_order (hperm : xs.Perm ys) (hnodup : xs.Nodup)
    (h : ∀ a b, [a, b].Sublist ys → [a, b].Sublist xs) : xs = ys := by
  -- Being before is an order on the elements, which a list without repetition is sorted by.
  have hxs : xs.Pairwise (fun a b => [a, b].Sublist xs) := List.pairwise_iff_forall_sublist.mpr id
  have hys : ys.Pairwise (fun a b => [a, b].Sublist xs) :=
    List.pairwise_iff_forall_sublist.mpr (h _ _)
  exact hperm.eq_of_pairwise (fun a b _ _ => eq_of_before_both hnodup) hxs hys

end Order

section Ties

variable {es es' : List (String × UInt32)}

theorem sublist_filter_count {a b : String × UInt32} (hab : a.2 = b.2)
    (h : [a, b].Sublist es) : [a, b].Sublist (es.filter (fun e => e.2 = a.2)) := by
  have := h.filter (fun e => e.2 = a.2)
  simpa [List.filter_cons, hab] using this

theorem keepsTies_iff :
    KeepsTies es es' ↔ ∀ a b, a.2 = b.2 → [a, b].Sublist es' → [a, b].Sublist es := by
  rw [KeepsTies, List.pairwise_iff_forall_sublist]
  exact ⟨fun h a b hab hsub => h hsub hab, fun h _ _ hsub hab => h _ _ hab hsub⟩

theorem KeepsTies.trans {es'' : List (String × UInt32)} (h : KeepsTies es es')
    (h' : KeepsTies es' es'') : KeepsTies es es'' := by
  rw [keepsTies_iff] at *
  exact fun a b hab hsub => h a b hab (h' a b hab hsub)

theorem SameTies.keepsTies (h : SameTies es es') : KeepsTies es es' := by
  rw [keepsTies_iff]
  intro a b hab hsub
  have hties := sublist_filter_count hab hsub
  rw [← h a.2] at hties
  exact hties.trans List.filter_sublist

/-- Where no entry is repeated, the order of the ties is the ties in their order. -/
theorem KeepsTies.sameTies (h : KeepsTies es es') (hperm : es.Perm es') (hnodup : es'.Nodup) :
    SameTies es es' := by
  intro n
  apply eq_of_same_order (hperm.filter _)
  · exact (hperm.nodup_iff.mpr hnodup).filter _
  · intro a b hab
    have hmem := fun e (he : e ∈ [a, b]) => (List.mem_filter.mp (hab.subset he)).2
    simp only [List.mem_cons, List.not_mem_nil, or_false, forall_eq_or_imp, forall_eq,
      decide_eq_true_eq] at hmem
    obtain ⟨ha, hb⟩ := hmem
    have hcount : a.2 = b.2 := ha.trans hb.symm
    have hkept := keepsTies_iff.mp h a b hcount (hab.trans List.filter_sublist)
    exact ha ▸ sublist_filter_count hcount hkept

end Ties

namespace Usage

theorem nodup_toList (u : Usage) : u.toList.Nodup := List.Nodup.of_map _ u.nodup_names

/-- A list is the ranking of a usage exactly if it has the entries of the usage, falls, and keeps
the order of entry among equal counts. Two usages that agree on that order have one ranking, and so
one label under every table, tuning and total. -/
theorem byCountDesc_stable (u : Usage) :
    (∀ es, es = u.byCountDesc ↔ es.Perm u.toList ∧ Falling es ∧ KeepsTies es u.toList) ∧
    ∀ v : Usage, v.toList.Perm u.toList → KeepsTies v.toList u.toList →
      v.byCountDesc = u.byCountDesc ∧
        ∀ t tuning total, classify t tuning total v = classify t tuning total u := by
  have hunique : ∀ es, es.Perm u.toList → Falling es → KeepsTies es u.toList →
      es = u.byCountDesc := fun es hperm hfalling hties =>
    eq_ranked hfalling (hties.sameTies hperm u.nodup_toList)
  refine ⟨fun es => ⟨?_, fun ⟨hperm, hfalling, hties⟩ => hunique es hperm hfalling hties⟩, ?_⟩
  · rintro rfl
    exact ⟨List.mergeSort_perm _ _, falling_ranked _, (sameTies_ranked _).keepsTies⟩
  · intro v hperm hties
    have hsame : v.byCountDesc = u.byCountDesc :=
      hunique _ ((List.mergeSort_perm _ _).trans hperm) (falling_ranked _)
        ((sameTies_ranked v.toList).keepsTies.trans hties)
    refine ⟨hsame, fun t tuning total => ?_⟩
    simp only [classify, hsame]

/-- Two weapons with as many kills as each other, and one with more, entered last or first. -/
def leaderLast : Usage := .ofList [("M1 GARAND", 4), ("MP40", 4), ("BAZOOKA", 6)]

def leaderFirst : Usage := .ofList [("BAZOOKA", 6), ("M1 GARAND", 4), ("MP40", 4)]

/-- When the leader was entered does not matter. -/
theorem byCountDesc_stable_leader :
    leaderFirst.toList.Perm leaderLast.toList ∧
      KeepsTies leaderFirst.toList leaderLast.toList ∧
      leaderFirst.byCountDesc = leaderLast.byCountDesc := by
  have hperm : leaderFirst.toList.Perm leaderLast.toList := by decide +kernel
  have hties : KeepsTies leaderFirst.toList leaderLast.toList := by decide +kernel
  exact ⟨hperm, hties, (leaderLast.byCountDesc_stable.2 leaderFirst hperm hties).1⟩

end Usage

end Allegiance
