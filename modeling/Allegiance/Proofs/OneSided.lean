import Mathlib.Algebra.Order.Field.Power
import Mathlib.Tactic.Linarith
import Mathlib.Tactic.Positivity
import Mathlib.Tactic.Ring
import Allegiance.Proofs.EarlyExit
import Allegiance.Proofs.RoundingError

namespace Allegiance

open Binary64 (rounded halfUnit halfUnit_pos fullSignificand)

/-- Every weapon of a usage that a taxonomy knows is on one side. -/
def Usage.OneSided (u : Usage) (t : Taxonomy) (f : Faction) : Prop :=
  ∀ e ∈ u.toList, ∀ g, t.factionOf e.1 = some g → g = f

/-- A decimal of `d` digits after its point has so few of them, for so many kills, that no double is
between the share of some kills and the decimal if these differ. -/
def FewDigits (total : UInt32) (d : Nat) : Prop := 3 * total.toNat * 10 ^ d < 2 ^ 54

instance (total : UInt32) (d : Nat) : Decidable (FewDigits total d) :=
  inferInstanceAs (Decidable (_ < _))

theorem fewDigits_of_le_six {total : UInt32} {d : Nat} (h : d ≤ 6) : FewDigits total d := by
  have htotal := total.toNat_lt
  have hpow : 10 ^ d ≤ 10 ^ 6 := Nat.pow_le_pow_right (by decide) h
  calc 3 * total.toNat * 10 ^ d ≤ 3 * total.toNat * 10 ^ 6 := Nat.mul_le_mul_left _ hpow
    _ < 2 ^ 54 := by omega

section OneSide

variable {t : Taxonomy} {tuning : Tuning} {total : UInt32} {u : Usage} {f : Faction}

theorem Usage.OneSided.sideKills_of_ne (h : u.OneSided t f) {g : Faction} (hg : g ≠ f) :
    u.sideKills t g = 0 := by
  simp only [Usage.sideKills, Allegiance.sideKills, List.sum_eq_zero_iff, List.mem_map]
  rintro n ⟨e, he, rfl⟩
  exact if_neg (fun hside => hg (h e he g hside))

/-- The other side has no kills, so there are two labels. -/
theorem classify_of_oneSided (hratio : tuning.RatioAbove 0) (hpos : 0 < total)
    (hside : u.OneSided t f) :
    classify t tuning total u =
      if tuning.MetBy total (u.sideKills t f) then f.label else .unknown := by
  have hother : ∀ g, g ≠ f → ¬ tuning.MetBy total (u.sideKills t g) := by
    intro g hg
    rw [hside.sideKills_of_ne hg]
    exact Tuning.not_metBy_zero hratio hpos
  split
  · rename_i hmet
    obtain ⟨g, hlabel, hfirst⟩ := exists_firstToReach hratio hpos hmet
    by_cases hg : g = f
    · rw [hlabel, hg]
    · exact absurd (metBy_of_firstToReach hfirst) (hother g hg)
  · rename_i hmet
    have hnone : ∀ g, ¬ tuning.MetBy total (u.sideKills t g) := by
      intro g
      by_cases hg : g = f
      · exact hg ▸ hmet
      · exact hother g hg
    rw [classify_eq_undecided hratio hpos hnone, undecided, if_neg]
    rintro ⟨haxis, hallies⟩
    cases f with
    | axis => exact hallies.ne' (hside.sideKills_of_ne (by decide))
    | allies => exact haxis.ne' (hside.sideKills_of_ne (by decide))

end OneSide

namespace Tuning

/-- The threshold takes in what lies half a unit beyond the kills, if there are any. -/
theorem metBy_iff_le_add_halfUnit {tuning : Tuning} {r : Binary64.Finite} {total : UInt32}
    {kills : Nat} (hr : tuning.thresholdRatio = .finite r) (hlow : 0 < r.value)
    (hone : r.value ≤ 1) (hpos : 0 < total) (hend : kills < fullSignificand) :
    tuning.MetBy total kills ↔ 0 < kills ∧ total.toNat * r.value ≤ kills + halfUnit kills := by
  rcases Nat.eq_zero_or_pos kills with rfl | hkills
  · have hnone : ¬ tuning.MetBy total 0 := not_metBy_zero ⟨r, hr, hlow, hone⟩ hpos
    simp [hnone]
  · obtain ⟨threshold, ht, hvalue⟩ := exists_threshold_eq_finite total hr hlow hone
    rw [MetBy, ht, Binary64.AtMost, hvalue, and_iff_right hkills]
    exact Binary64.rounded_le_natCast_iff hkills hend (mul_nonneg (Nat.cast_nonneg _) hlow.le)

/-- The double of a decimal is above zero only if the decimal is, and is close to it. -/
theorem exists_ratio_eq {tuning : Tuning} {p d : Nat}
    (hwritten : tuning.thresholdRatio = .ofDecimal false p (-(d : Int))) (hp : p ≤ 10 ^ d)
    (hratio : tuning.RatioAbove 0) :
    ∃ r : Binary64.Finite, tuning.thresholdRatio = .finite r ∧ 0 < r.value ∧ r.value ≤ 1 ∧
      0 < p ∧ r.value = rounded (p / 10 ^ d) ∧
      |r.value - p / 10 ^ d| ≤ (2 : Rat) ^ (-54 : Int) := by
  obtain ⟨r, hr, hlow, hone⟩ := hratio
  have hvalue := Binary64.value_of_ofDecimal hp (hwritten ▸ hr) hlow
  refine ⟨r, hr, hlow, hone, ?_, hvalue, ?_⟩
  · apply Nat.pos_of_ne_zero
    rintro rfl
    rw [Nat.cast_zero, zero_div, Binary64.rounded_zero] at hvalue
    exact hlow.ne' hvalue
  · rw [hvalue]
    apply Binary64.abs_rounded_sub_le_of_le_one (by positivity)
    rw [div_le_one (by positivity)]
    exact_mod_cast hp

end Tuning

section Share

variable {p d n kills : Nat} {ratio : Rat}

theorem add_tenth_le {a b : Nat} (h : a < b) :
    (a : Rat) / 10 ^ d + 1 / 10 ^ d ≤ b / 10 ^ d := by
  rw [← add_div]
  exact div_le_div_of_nonneg_right (by exact_mod_cast h) (by positivity)

theorem mul_ten_pow_div (kills d : Nat) : ((kills * 10 ^ d : Nat) : Rat) / 10 ^ d = kills := by
  push_cast
  exact mul_div_cancel_right₀ _ (by positivity)

/-- With few digits, a `10 ^ d`th outweighs the errors of the ratio and of the product. -/
theorem three_mul_le_tenth (h : 3 * n * 10 ^ d < 2 ^ 54) :
    3 * (n * (2 : Rat) ^ (-54 : Int)) < 1 / 10 ^ d := by
  rw [lt_div_iff₀ (by positivity), ← mul_assoc, mul_right_comm, zpow_neg,
    mul_inv_lt_iff₀ (by positivity), one_mul]
  exact_mod_cast h

theorem mul_div_eq (p n d : Nat) : (n : Rat) * (p / 10 ^ d) = ((p * n : Nat) : Rat) / 10 ^ d := by
  push_cast
  ring

theorem mul_div_le_of_le (h : p * n ≤ kills * 10 ^ d) : (n : Rat) * (p / 10 ^ d) ≤ kills := by
  rw [mul_div_eq, ← mul_ten_pow_div kills d]
  exact div_le_div_of_nonneg_right (by exact_mod_cast h) (by positivity)

theorem abs_mul_sub_le (herror : |ratio - p / 10 ^ d| ≤ (2 : Rat) ^ (-54 : Int)) :
    |n * ratio - n * (p / 10 ^ d)| ≤ n * (2 : Rat) ^ (-54 : Int) := by
  rw [← mul_sub, abs_mul, Nat.abs_cast]
  exact mul_le_mul_of_nonneg_left herror (Nat.cast_nonneg n)

/-- The error of the product is no more than two such errors. -/
theorem halfUnit_le_of_le (hkills : 0 < kills) (hfit : kills ≤ n) :
    halfUnit kills ≤ 2 * (n * (2 : Rat) ^ (-54 : Int)) := by
  have hfit' : (kills : Rat) ≤ n := by exact_mod_cast hfit
  calc halfUnit kills ≤ kills * (2 : Rat) ^ (-53 : Int) := Binary64.halfUnit_le hkills
    _ ≤ n * (2 : Rat) ^ (-53 : Int) :=
        mul_le_mul_of_nonneg_right hfit' (Binary64.two_zpow_pos _).le
    _ = 2 * (n * (2 : Rat) ^ (-54 : Int)) := by
        rw [show (-53 : Int) = 1 + -54 by ring, zpow_add₀ (by norm_num), zpow_one]
        ring

/-- More kills than the share are at least the product. -/
theorem mul_ratio_le_of_lt (hfew : 3 * n * 10 ^ d < 2 ^ 54)
    (herror : |ratio - p / 10 ^ d| ≤ (2 : Rat) ^ (-54 : Int)) (h : p * n < kills * 10 ^ d) :
    n * ratio ≤ kills := by
  have hunit := mul_nonneg (Nat.cast_nonneg (α := Rat) n) (Binary64.two_zpow_pos (-54)).le
  have hshare := add_tenth_le (d := d) h
  rw [mul_ten_pow_div, ← mul_div_eq] at hshare
  have hnear := (abs_le.mp (abs_mul_sub_le (n := n) herror)).2
  have htenth := three_mul_le_tenth hfew
  -- The error as one name, since `linarith` would not take its power of two alike everywhere.
  generalize (n : Rat) * (2 : Rat) ^ (-54 : Int) = unit at hunit hnear htenth
  linarith only [hunit, hshare, hnear, htenth]

/-- Fewer kills than the share are less than the product, by more than half a unit. -/
theorem add_halfUnit_lt_mul_ratio (hfew : 3 * n * 10 ^ d < 2 ^ 54)
    (herror : |ratio - p / 10 ^ d| ≤ (2 : Rat) ^ (-54 : Int)) (hkills : 0 < kills)
    (hfit : kills ≤ n) (h : kills * 10 ^ d < p * n) : kills + halfUnit kills < n * ratio := by
  have hshare := add_tenth_le (d := d) h
  rw [mul_ten_pow_div, ← mul_div_eq] at hshare
  have hnear := (abs_le.mp (abs_mul_sub_le (n := n) herror)).1
  have hhalf := halfUnit_le_of_le hkills hfit
  have htenth := three_mul_le_tenth hfew
  generalize (n : Rat) * (2 : Rat) ^ (-54 : Int) = unit at hnear hhalf htenth
  linarith only [hshare, hnear, hhalf, htenth]

end Share

/-- Let the ratio be the double that is read from the decimal `p / 10 ^ d`, and let a player use the
weapons of one side only. The side is named if its kills, with half a unit of their last place, are
at least the product of the double and all kills; otherwise nothing is known. If the decimal has few
digits, more than its share of the kills names the side and less does not. Exactly the share names it
if and only if the excess of the double over the decimal comes to half a unit at most; so it does
wherever the double is not above the decimal. -/
theorem classify_decimal (t : Taxonomy) (tuning : Tuning) (total : UInt32) (u : Usage) (f : Faction)
    (p d kills : Nat) (hwritten : tuning.thresholdRatio = .ofDecimal false p (-(d : Int)))
    (hp : p ≤ 10 ^ d) (hratio : tuning.RatioAbove 0) (hpos : 0 < total) (hside : u.OneSided t f)
    (hkills : u.sideKills t f = kills) (hfit : kills ≤ total.toNat) :
    ∃ r : Binary64.Finite, tuning.thresholdRatio = .finite r ∧ r.value = rounded (p / 10 ^ d) ∧
      classify t tuning total u =
        (if 0 < kills ∧ total.toNat * r.value ≤ kills + halfUnit kills then f.label
        else .unknown) ∧
      (FewDigits total d →
        (p * total.toNat < kills * 10 ^ d → classify t tuning total u = f.label) ∧
        (kills * 10 ^ d < p * total.toNat → classify t tuning total u = .unknown)) ∧
      (p * total.toNat = kills * 10 ^ d →
        (classify t tuning total u = f.label ↔
          total.toNat * (r.value - p / 10 ^ d) ≤ halfUnit kills)) ∧
      (r.value ≤ p / 10 ^ d → p * total.toNat ≤ kills * 10 ^ d →
        classify t tuning total u = f.label) := by
  obtain ⟨r, hr, hlow, hone, hsome, hvalue, herror⟩ := Tuning.exists_ratio_eq hwritten hp hratio
  have hend : kills < fullSignificand := by
    have := total.toNat_lt
    simp only [fullSignificand]
    omega
  have hlabel := classify_of_oneSided hratio hpos hside
  simp only [hkills, Tuning.metBy_iff_le_add_halfUnit hr hlow hone hpos hend] at hlabel
  have hnamed : classify t tuning total u = f.label ↔
      0 < kills ∧ total.toNat * r.value ≤ kills + halfUnit kills := by
    rw [hlabel, ite_eq_left_iff]
    simp [f.label_ne_unknown.symm]
  -- Enough of a share that is not nothing is at least one kill.
  have hany : p * total.toNat ≤ kills * 10 ^ d → 0 < kills := by
    intro h
    have hproduct := Nat.mul_pos hsome (UInt32.lt_iff_toNat_lt.mp hpos)
    exact Nat.pos_of_mul_pos_right (Nat.lt_of_lt_of_le hproduct h)
  refine ⟨r, hr, hvalue, hlabel, fun hfew => ⟨?_, ?_⟩, ?_, ?_⟩
  · intro hmore
    have hproduct := mul_ratio_le_of_lt hfew herror hmore
    exact hnamed.mpr ⟨hany hmore.le, le_add_of_le_of_nonneg hproduct (halfUnit_pos kills).le⟩
  · intro hless
    rw [hlabel, if_neg]
    rintro ⟨hkills, hle⟩
    exact absurd hle (not_le.mpr (add_halfUnit_lt_mul_ratio hfew herror hkills hfit hless))
  · intro hexact
    have hshare : (total.toNat : Rat) * (p / 10 ^ d) = kills := by
      rw [mul_div_eq, hexact, mul_ten_pow_div]
    rw [hnamed, and_iff_right (hany hexact.le), mul_sub, hshare, sub_le_iff_le_add, add_comm]
  · intro hbelow henough
    have hproduct := mul_le_mul_of_nonneg_left hbelow (Nat.cast_nonneg (α := Rat) total.toNat)
    have hle := le_trans hproduct (mul_div_le_of_le henough)
    exact hnamed.mpr ⟨hany henough, le_add_of_le_of_nonneg hle (halfUnit_pos kills).le⟩

def fiftySixPercent : Tuning := ⟨.ofDecimal false 56 (-2), .unknown⟩

theorem ratioAbove_fiftySixPercent : fiftySixPercent.RatioAbove 0 :=
  Tuning.ratioAbove_zero_iff.mpr (by decide +kernel)

def mp40Only (kills : UInt32) : Usage := .ofList [("MP40", kills)]

theorem toList_mp40Only (kills : UInt32) : (mp40Only kills).toList = [("MP40", kills)] := rfl

theorem factionOf_mp40 : twoWeapons.factionOf "MP40" = some .axis := by decide +kernel

theorem oneSided_mp40Only (kills : UInt32) : (mp40Only kills).OneSided twoWeapons .axis := by
  intro e he g hg
  rw [toList_mp40Only, List.mem_singleton] at he
  rw [he, factionOf_mp40] at hg
  exact (Option.some.inj hg).symm

theorem sideKills_mp40Only (kills : UInt32) :
    (mp40Only kills).sideKills twoWeapons .axis = kills.toNat := by
  simp [Usage.sideKills, sideKills, toList_mp40Only, factionOf_mp40]

/-- Of 25 kills 15 are more than a share of 0.56, and 13 are less. -/
theorem classify_decimal_next_kill :
    classify twoWeapons fiftySixPercent 25 (mp40Only 15) = .axis ∧
      classify twoWeapons fiftySixPercent 25 (mp40Only 13) = .unknown := by
  have hfew : FewDigits 25 2 := fewDigits_of_le_six (by decide)
  obtain ⟨_, _, _, _, hmore, _⟩ := classify_decimal twoWeapons fiftySixPercent 25 (mp40Only 15) .axis
    56 2 15 rfl (by decide) ratioAbove_fiftySixPercent (by decide) (oneSided_mp40Only 15)
    (sideKills_mp40Only 15) (by decide)
  obtain ⟨_, _, _, _, hless, _⟩ := classify_decimal twoWeapons fiftySixPercent 25 (mp40Only 13) .axis
    56 2 13 rfl (by decide) ratioAbove_fiftySixPercent (by decide) (oneSided_mp40Only 13)
    (sideKills_mp40Only 13) (by decide)
  exact ⟨(hmore hfew).1 (by decide), (hless hfew).2 (by decide)⟩

/-- Fourteen of them are exactly that share. The double above 0.56 asks for a little more, and the
product is the double after fourteen. -/
theorem share_missed_by_fourteen_of_25 :
    fiftySixPercent.thresholdRatio = .ofDecimal false 56 (-2) ∧ fiftySixPercent.RatioAbove 0 ∧
      (mp40Only 14).OneSided twoWeapons .axis ∧ (mp40Only 14).sideKills twoWeapons .axis = 14 ∧
      56 * 25 = 14 * 10 ^ 2 ∧
      classify twoWeapons fiftySixPercent 25 (mp40Only 14) = .unknown := by
  refine ⟨rfl, ratioAbove_fiftySixPercent, oneSided_mp40Only 14, sideKills_mp40Only 14, rfl, ?_⟩
  rw [classify_of_pairwise (by decide) (by decide +kernel)]
  decide +kernel

/-- A decimal of twenty digits is read as one half, so half of the kills are enough for more. -/
example : classify twoWeapons ⟨.ofDecimal false 50000000000000000001 (-20), .unknown⟩ 2
    (mp40Only 1) = .axis := by
  decide +kernel

end Allegiance
