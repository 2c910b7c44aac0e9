import Mathlib.Algebra.Order.BigOperators.Group.List
import Mathlib.Algebra.Order.Ring.Nat
import Mathlib.Data.List.Induction
import Allegiance.Classification.Walk

namespace Allegiance

abbrev Entries := List (String × UInt32)

def sideKills (side : String → Option Faction) (f : Faction) (es : Entries) : Nat :=
  (es.map (fun e => if side e.1 = some f then e.2.toNat else 0)).sum

def allKills (es : Entries) : Nat := (es.map (fun e => e.2.toNat)).sum

section Sums

variable {side : String → Option Faction} {f : Faction} {es es' : Entries}

@[simp] theorem sideKills_nil : sideKills side f [] = 0 := rfl

theorem sideKills_append :
    sideKills side f (es ++ es') = sideKills side f es + sideKills side f es' := by
  simp [sideKills]

theorem sideKills_snoc (e : String × UInt32) :
    sideKills side f (es ++ [e]) =
      sideKills side f es + if side e.1 = some f then e.2.toNat else 0 := by
  simp [sideKills]

theorem sideKills_perm (h : es.Perm es') : sideKills side f es = sideKills side f es' :=
  (h.map _).sum_eq

theorem allKills_cons (e : String × UInt32) : allKills (e :: es) = e.2.toNat + allKills es := by
  simp [allKills]

theorem allKills_append : allKills (es ++ es') = allKills es + allKills es' := by
  simp [allKills]

theorem allKills_perm (h : es.Perm es') : allKills es = allKills es' := (h.map _).sum_eq

theorem sideKills_add_le (side : String → Option Faction) (es : Entries) :
    sideKills side .axis es + sideKills side .allies es ≤ allKills es := by
  induction es with
  | nil => simp
  | cons e es ih =>
    simp only [sideKills, allKills, List.map_cons, List.sum_cons] at ih ⊢
    rcases hs : side e.1 with _ | (_ | _)
    all_goals
      simp only [reduceCtorEq, ↓reduceIte, Option.some.injEq]
      omega

theorem sideKills_snoc_other {e : String × UInt32} (h : side e.1 ≠ some f) :
    sideKills side f (es ++ [e]) = sideKills side f es := by
  simp [sideKills_snoc, h]

theorem sideKills_filter_add (p : String × UInt32 → Bool) :
    sideKills side f (es.filter p) + sideKills side f (es.filter (fun e => !p e)) =
      sideKills side f es := by
  induction es with
  | nil => rfl
  | cons e es ih =>
    simp only [sideKills, List.filter_cons, List.map_cons, List.sum_cons] at ih ⊢
    cases p e
    all_goals
      simp only [Bool.not_true, Bool.not_false, Bool.false_eq_true, ↓reduceIte, List.map_cons,
        List.sum_cons]
      omega

/-- What is left out counts for nothing if it is not of the side. -/
theorem sideKills_filter {p : String × UInt32 → Bool}
    (h : ∀ e ∈ es, side e.1 = some f → p e = true) :
    sideKills side f (es.filter p) = sideKills side f es := by
  induction es with
  | nil => rfl
  | cons e es ih =>
    have htail := ih (fun x hx => h x (List.mem_cons_of_mem e hx))
    simp only [sideKills, List.filter_cons, List.map_cons, List.sum_cons] at htail ⊢
    cases hp : p e with
    | true => simp [htail]
    | false =>
      have hs : side e.1 ≠ some f := by
        intro hs
        simp [h e List.mem_cons_self hs] at hp
      simp [hs, htail]

theorem le_sideKills_of_mem {w : String} {n : UInt32} (h : (w, n) ∈ es) (hs : side w = some f) :
    n.toNat ≤ sideKills side f es := by
  apply List.single_le_sum (by simp)
  exact List.mem_map.mpr ⟨(w, n), h, by simp [hs]⟩

end Sums

namespace Tally

/-- A tally that has counted some entries, and no word of it has overflowed. -/
def Counts (t : Tally) (side : String → Option Faction) (es : Entries) : Prop :=
  ∀ f, (t.kills f).toNat = sideKills side f es

theorem counts_empty (side : String → Option Faction) : empty.Counts side [] := by
  intro f
  cases f <;> rfl

theorem Counts.add {t : Tally} {side : String → Option Faction} {es : Entries}
    (h : t.Counts side es) (e : String × UInt32)
    (hroom : ∀ f, sideKills side f es + e.2.toNat < 2 ^ 64) :
    (t.add (side e.1) e.2).Counts side (es ++ [e]) := by
  intro f
  rw [sideKills_snoc, ← h f]
  have hr := hroom f
  rw [← h f] at hr
  rcases hs : side e.1 with _ | (_ | _) <;> cases f <;> simp_all [Tally.add, kills]

end Tally

/-- Side `f` is the first whose running sum has enough, and at that entry it is alone in it. -/
def FirstToReach (side : String → Option Faction) (enough : Nat → Prop) (f : Faction)
    (es : Entries) : Prop :=
  ∃ before entry after, es = before ++ entry :: after ∧
    (∀ g, ¬ enough (sideKills side g before)) ∧
    enough (sideKills side f (before ++ [entry])) ∧
    ¬ enough (sideKills side f.opponent (before ++ [entry]))

def undecided (axis allies : Nat) : Label := if 0 < axis ∧ 0 < allies then .mixed else .unknown

theorem Tally.fallback_eq {t : Tally} {side : String → Option Faction} {es : Entries}
    (h : t.Counts side es) :
    t.fallback = undecided (sideKills side .axis es) (sideKills side .allies es) := by
  have ha := h .axis
  have hl := h .allies
  simp only [Tally.kills] at ha hl
  simp only [fallback, undecided, ← ha, ← hl, UInt64.lt_iff_toNat_lt, UInt64.toNat_zero]

section Walk

variable {side : String → Option Faction} {threshold : Binary64} {enough : Nat → Prop}

theorem Tally.dominant_eq_none {t : Tally}
    (h : ∀ f, t.reaches f threshold = false) : t.dominant threshold = none := by
  simp [dominant, h]

theorem Tally.dominant_eq_some {t : Tally} {f : Faction} (h : t.reaches f threshold = true)
    (ho : t.reaches f.opponent threshold = false) : t.dominant threshold = some f := by
  cases f <;> simp_all [dominant, Faction.opponent]

theorem ne_some_opponent {x : Option Faction} {f : Faction} (h : x = some f) :
    x ≠ some f.opponent := by
  rw [h]
  cases f <;> simp [Faction.opponent]

/-- The entry that gives a side enough belongs to that side. -/
theorem side_of_enough {before : Entries} {e : String × UInt32} {f : Faction}
    (hnone : ¬ enough (sideKills side f before))
    (h : enough (sideKills side f (before ++ [e]))) : side e.1 = some f := by
  by_contra hne
  exact hnone (sideKills_snoc_other hne ▸ h)

theorem enough_alone {before : Entries} {e : String × UInt32} {f : Faction}
    (hnone : ∀ g, ¬ enough (sideKills side g before))
    (h : enough (sideKills side f (before ++ [e]))) :
    ¬ enough (sideKills side f.opponent (before ++ [e])) := by
  rw [sideKills_snoc_other (ne_some_opponent (side_of_enough (hnone f) h))]
  exact hnone f.opponent

/-- What a walk over the rest of the entries comes to, after entries that gave no side enough. The
sums stay below the word's end because kills that are not enough are fewer than 2³². -/
theorem walk_outcome (hreach : ∀ (t : Tally) f,
      t.reaches f threshold = true ↔ enough (t.kills f).toNat)
    (hsmall : ∀ n, ¬ enough n → n < 2 ^ 32)
    (rest before : Entries) (tally : Tally) (hcounts : tally.Counts side before)
    (hnone : ∀ f, ¬ enough (sideKills side f before)) :
    (∃ f, walk side threshold rest tally = f.label ∧
      FirstToReach side enough f (before ++ rest)) ∨
    ((∀ f, ¬ enough (sideKills side f (before ++ rest))) ∧
      walk side threshold rest tally =
        undecided (sideKills side .axis (before ++ rest))
          (sideKills side .allies (before ++ rest))) := by
  induction rest generalizing before tally with
  | nil =>
    right
    rw [List.append_nil]
    exact ⟨hnone, Tally.fallback_eq hcounts⟩
  | cons entry rest ih =>
    have hroom : ∀ f, sideKills side f before + entry.2.toNat < 2 ^ 64 := by
      intro f
      have := hsmall _ (hnone f)
      have := entry.2.toNat_lt
      omega
    have hnext := hcounts.add entry hroom
    have hreach' : ∀ f, (tally.add (side entry.1) entry.2).reaches f threshold = true ↔
        enough (sideKills side f (before ++ [entry])) := by
      intro f
      rw [hreach, hnext f]
    by_cases hf : ∃ f, enough (sideKills side f (before ++ [entry]))
    · -- The walk ends here, for the side this entry belongs to.
      obtain ⟨f, hf⟩ := hf
      have ho := enough_alone hnone hf
      have hdominant := Tally.dominant_eq_some ((hreach' f).mpr hf)
        (Bool.eq_false_iff.mpr (fun h => ho ((hreach' _).mp h)))
      left
      refine ⟨f, ?_, before, entry, rest, rfl, hnone, hf, ho⟩
      simp only [walk, hdominant]
    · have hnone' : ∀ f, ¬ enough (sideKills side f (before ++ [entry])) :=
        fun f h => hf ⟨f, h⟩
      have hdominant : (tally.add (side entry.1) entry.2).dominant threshold = none :=
        Tally.dominant_eq_none
          (fun f => Bool.eq_false_iff.mpr (fun h => hnone' f ((hreach' f).mp h)))
      have hrest := ih (before ++ [entry]) _ hnext hnone'
      simp only [walk, hdominant]
      simpa only [List.append_assoc, List.singleton_append] using hrest

theorem enough_append (hmono : ∀ {a b}, enough a → a ≤ b → enough b) {f : Faction}
    {es : Entries} (es' : Entries) (h : enough (sideKills side f es)) :
    enough (sideKills side f (es ++ es')) := by
  refine hmono h ?_
  rw [sideKills_append]
  exact Nat.le_add_right _ _

theorem FirstToReach.enough_all {f : Faction} {es : Entries}
    (hmono : ∀ {a b}, enough a → a ≤ b → enough b)
    (h : FirstToReach side enough f es) : enough (sideKills side f es) := by
  obtain ⟨before, entry, after, rfl, _, hf, _⟩ := h
  rw [← List.singleton_append, ← List.append_assoc]
  exact enough_append hmono after hf

/-- A side that is the first to have enough in some entries is so in others too, if every entry of
the side is there after as many kills of its own, and after no more of the other side. -/
theorem FirstToReach.of_split {f : Faction} {es es' : Entries}
    (hmono : ∀ {a b}, enough a → a ≤ b → enough b) (h : FirstToReach side enough f es')
    (hsplit : ∀ before' entry after', es' = before' ++ entry :: after' → side entry.1 = some f →
      ∃ before after, es = before ++ entry :: after ∧
        sideKills side f before = sideKills side f before' ∧
        sideKills side f.opponent before ≤ sideKills side f.opponent before') :
    FirstToReach side enough f es := by
  obtain ⟨before', entry, after', hes', hnone, hfirst, _⟩ := h
  obtain ⟨before, after, hes, hown, hother⟩ :=
    hsplit before' entry after' hes' (side_of_enough (hnone f) hfirst)
  have hnone' : ∀ g, ¬ enough (sideKills side g before) := by
    intro g hg
    by_cases hgf : g = f
    · subst hgf
      exact hnone g (hown ▸ hg)
    · rw [Faction.eq_opponent_of_ne hgf] at hg
      exact hnone f.opponent (hmono hg hother)
  have hfirst' : enough (sideKills side f (before ++ [entry])) := by
    rw [sideKills_snoc, hown, ← sideKills_snoc]
    exact hfirst
  exact ⟨before, entry, after, hes, hnone', hfirst', enough_alone hnone' hfirst'⟩

/-- The first side with enough is settled by the entries alone. -/
theorem FirstToReach.unique {f g : Faction} {es : Entries}
    (hmono : ∀ {a b}, enough a → a ≤ b → enough b)
    (hf : FirstToReach side enough f es) (hg : FirstToReach side enough g es) : f = g := by
  obtain ⟨before, entry, after, rfl, hnone, hfirst, _⟩ := hf
  obtain ⟨before', entry', after', he, hnone', hfirst', halone'⟩ := hg
  -- Two entries of one list: the same one, or one stands among those before the other.
  rcases List.append_eq_append_iff.mp he with ⟨mid, hb, hm⟩ | ⟨mid, hb, hm⟩
  · cases mid with
    | nil =>
      simp only [List.append_nil, List.nil_append, List.cons.injEq] at hb hm
      by_contra hne
      rw [hb, ← hm.1, ← Faction.eq_opponent_of_ne hne] at halone'
      exact halone' hfirst
    | cons e mid =>
      simp only [List.cons_append, List.cons.injEq] at hm
      rw [hb, ← hm.1, ← List.singleton_append, ← List.append_assoc] at hnone'
      exact absurd (enough_append hmono mid hfirst) (hnone' f)
  · cases mid with
    | nil =>
      simp only [List.append_nil, List.nil_append, List.cons.injEq] at hb hm
      by_contra hne
      rw [← hb, hm.1, ← Faction.eq_opponent_of_ne hne] at halone'
      exact halone' hfirst
    | cons e mid =>
      simp only [List.cons_append, List.cons.injEq] at hm
      rw [hb, ← hm.1, ← List.singleton_append, ← List.append_assoc] at hnone
      exact absurd (enough_append hmono mid hfirst') (hnone g)

end Walk

end Allegiance
