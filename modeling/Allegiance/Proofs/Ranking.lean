import Mathlib.Data.List.Basic
import Allegiance.Usage.Ranking

namespace Allegiance

/-- Entries whose counts never rise. -/
def Falling (es : List (String × UInt32)) : Prop := es.Pairwise (fun a b => b.2 ≤ a.2)

/-- Two lists with the same entries of every count, in the same order. -/
def SameTies (es es' : List (String × UInt32)) : Prop :=
  ∀ n, es.filter (fun e => e.2 = n) = es'.filter (fun e => e.2 = n)

def atLeast (a b : String × UInt32) : Bool := b.2 ≤ a.2

def ranked (es : List (String × UInt32)) : List (String × UInt32) := es.mergeSort atLeast

theorem atLeast_trans (a b c : String × UInt32) (hab : atLeast a b = true)
    (hbc : atLeast b c = true) : atLeast a c = true := by
  simp only [atLeast, decide_eq_true_eq] at hab hbc ⊢
  exact UInt32.le_trans hbc hab

theorem atLeast_total (a b : String × UInt32) : (atLeast a b || atLeast b a) = true := by
  simpa [atLeast] using UInt32.le_total b.2 a.2

section Ranked

variable {es es' : List (String × UInt32)}

theorem SameTies.symm (h : SameTies es es') : SameTies es' es := fun n => (h n).symm

theorem SameTies.mem (h : SameTies es es') {e : String × UInt32} (he : e ∈ es) : e ∈ es' := by
  have hmem : e ∈ es.filter (fun x => x.2 = e.2) := by simp [he]
  rw [h e.2] at hmem
  exact (List.mem_filter.mp hmem).1

theorem Falling.le_head {e x : String × UInt32} (h : Falling (e :: es)) (hx : x ∈ e :: es) :
    x.2 ≤ e.2 := by
  rcases List.mem_cons.mp hx with rfl | hx
  · exact UInt32.le_refl _
  · exact (List.pairwise_cons.mp h).1 x hx

/-- Two falling lists with the same ties are the same: their heads have the greatest count there is,
and are the first with it. -/
theorem eq_of_falling (hfalling : Falling es) (hfalling' : Falling es') (h : SameTies es es') :
    es = es' := by
  induction es generalizing es' with
  | nil =>
    symm
    apply List.eq_nil_iff_forall_not_mem.mpr
    intro e he
    exact List.not_mem_nil (h.symm.mem he)
  | cons e es ih =>
    cases es' with
    | nil => exact absurd (h.mem List.mem_cons_self) List.not_mem_nil
    | cons e' es' =>
      have hcount : e.2 = e'.2 := by
        apply UInt32.le_antisymm
        · exact hfalling'.le_head (h.mem List.mem_cons_self)
        · exact hfalling.le_head (h.symm.mem List.mem_cons_self)
      -- Both heads have the greatest count, and each is the first of the entries with it.
      have hfirst := h e.2
      simp only [List.filter_cons, hcount, decide_true, ↓reduceIte, List.cons.injEq] at hfirst
      obtain ⟨rfl, hrest⟩ := hfirst
      refine congrArg (e :: ·) (ih hfalling.tail hfalling'.tail ?_)
      intro n
      by_cases hn : e.2 = n
      · subst hn
        exact hrest
      · simpa [List.filter_cons, hn] using h n

theorem falling_ranked (es : List (String × UInt32)) : Falling (ranked es) := by
  have hsorted := List.pairwise_mergeSort atLeast_trans atLeast_total es
  exact hsorted.imp of_decide_eq_true

/-- The sort is stable: the entries of one count are in order already, so they stay in it. -/
theorem sameTies_ranked (es : List (String × UInt32)) : SameTies (ranked es) es := by
  intro n
  have hties : (es.filter (fun e => e.2 = n)).Pairwise (fun a b => atLeast a b = true) := by
    apply List.pairwise_of_forall_mem_list
    intro a ha b hb
    simp only [List.mem_filter, decide_eq_true_eq] at ha hb
    simp [atLeast, ha.2, hb.2]
  have hkept : (es.filter (fun e => e.2 = n)).Sublist (ranked es) :=
    List.sublist_mergeSort atLeast_trans atLeast_total hties List.filter_sublist
  have hsub := hkept.filter (fun e => e.2 = n)
  simp only [List.filter_filter, Bool.and_self] at hsub
  symm
  apply hsub.eq_of_length
  exact ((List.mergeSort_perm es _).filter _).length_eq.symm

/-- The only list that falls and has the ties of some entries is their ranking. -/
theorem eq_ranked (hfalling : Falling es) (hties : SameTies es es') : es = ranked es' := by
  apply eq_of_falling hfalling (falling_ranked es')
  intro n
  exact (hties n).trans (sameTies_ranked es' n).symm

theorem ranked_filter (es : List (String × UInt32)) (p : String × UInt32 → Bool) :
    (ranked es).filter p = ranked (es.filter p) := by
  apply eq_ranked
  · exact (falling_ranked es).filter p
  · intro n
    rw [List.filter_comm, sameTies_ranked es n, List.filter_comm]

/-- Where two lists have the same entries of some kind, such an entry stands after the same entries of
that kind in both. -/
theorem exists_split_of_filter {p : String × UInt32 → Bool} (h : es.filter p = es'.filter p)
    {before' after' : List (String × UInt32)} {e : String × UInt32}
    (hsplit : es' = before' ++ e :: after') (he : p e = true) :
    ∃ before after, es = before ++ e :: after ∧ before.filter p = before'.filter p := by
  subst hsplit
  rw [List.filter_append, List.filter_cons_of_pos he] at h
  obtain ⟨start, rest, rfl, hstart, hrest⟩ := List.filter_eq_append_iff.mp h
  obtain ⟨gap, after, rfl, hgap, -, -⟩ := List.filter_eq_cons_iff.mp hrest
  have hnothing : gap.filter p = [] := by
    apply List.filter_eq_nil_iff.mpr
    exact hgap
  refine ⟨start ++ gap, after, by simp, ?_⟩
  rw [List.filter_append, hstart, hnothing, List.append_nil]

end Ranked

theorem Usage.byCountDesc_eq (u : Usage) : u.byCountDesc = ranked u.toList := rfl

end Allegiance
