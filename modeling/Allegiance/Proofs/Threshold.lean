import Mathlib.Algebra.Order.Field.Power
import Mathlib.Tactic.Linarith
import Mathlib.Tactic.Positivity
import Mathlib.Tactic.Ring
import Allegiance.Classification.Tally
import Allegiance.Classification.Tuning
import Allegiance.Proofs.Rounding

namespace Allegiance

def Binary64.AtMost : Binary64 → Rat → Prop
  | .nan, _ | .infinite false, _ => False
  | .infinite true, _ => True
  | .finite x, q => x.value ≤ q

instance (x : Binary64) (q : Rat) : Decidable (x.AtMost q) :=
  match x with
  | .nan | .infinite false => isFalse id
  | .infinite true => isTrue trivial
  | .finite x => inferInstanceAs (Decidable (x.value ≤ q))

namespace Binary64

theorem Finite.half_add_le {r : Finite} (h : 1 / 2 < r.magnitude) :
    1 / 2 + (2 : Rat) ^ (-53 : Int) ≤ r.magnitude := by
  obtain ⟨hm, _, _, _⟩ := r.normal
  have hm' : (r.significand : Rat) < significandEnd := by exact_mod_cast hm
  have he : -53 ≤ r.exponent := by
    by_contra hlt
    have hle : (2 : Rat) ^ r.exponent ≤ (2 : Rat) ^ (-54 : Int) :=
      zpow_le_zpow_right₀ (by norm_num) (by omega)
    have : r.magnitude ≤ significandEnd * (2 : Rat) ^ (-54 : Int) := by
      simp only [Finite.magnitude]
      exact mul_le_mul hm'.le hle (two_zpow_pos _).le (by norm_num [significandEnd])
    have heq : (significandEnd : Rat) * (2 : Rat) ^ (-54 : Int) = 1 / 2 := by
      norm_num [significandEnd]
    rw [heq] at this
    exact absurd h (not_lt.mpr this)
  -- In units of 2⁻⁵³ both sides are whole numbers.
  obtain ⟨n, hn⟩ := intCast_div_two_zpow (m := r.significand) he
  rw [div_eq_iff (two_zpow_pos _).ne'] at hn
  have hunit : (1 / 2 : Rat) = fullSignificand * (2 : Rat) ^ (-53 : Int) := by
    norm_num [fullSignificand]
  simp only [Finite.magnitude, hn, hunit] at h ⊢
  have hlt : (fullSignificand : Int) < n := by
    have := lt_of_mul_lt_mul_right h (two_zpow_pos (-53)).le
    exact_mod_cast this
  have hle : ((fullSignificand : Rat) + 1) ≤ n := by
    refine le_trans ?_ (Rat.intCast_le_intCast.mpr (Int.add_one_le_iff.mpr hlt))
    norm_num [fullSignificand]
  calc (fullSignificand : Rat) * (2 : Rat) ^ (-53 : Int) + (2 : Rat) ^ (-53 : Int)
      = (fullSignificand + 1) * (2 : Rat) ^ (-53 : Int) := by ring
    _ ≤ n * (2 : Rat) ^ (-53 : Int) := mul_le_mul_of_nonneg_right hle (two_zpow_pos _).le

/-- More than half of a whole number is still more than half of it after rounding: the next number
of the grid above the half is reached. -/
theorem half_lt_rounded {n : Nat} {r : Finite} (hn : 0 < n) (hend : n < significandEnd)
    (h : 1 / 2 < r.magnitude) : (n : Rat) / 2 < rounded (n * r.magnitude) := by
  have hk₁ := Nat.log2_self_le hn.ne'
  have hk₂ := Nat.lt_log2_self (n := n)
  have hk : n.log2 ≤ 52 := by
    have := (Nat.log2_lt (k := 53) hn.ne').mpr (by simpa using hend)
    omega
  generalize n.log2 = k at *
  have hfit : n * 2 ^ (52 - k) + 1 ≤ significandEnd := by
    have hpow : (2 : Nat) ^ (k + 1) * 2 ^ (52 - k) = significandEnd := by
      rw [← pow_add, show k + 1 + (52 - k) = 53 by omega]
      norm_num [significandEnd]
    have := Nat.mul_lt_mul_of_pos_right hk₂ (Nat.two_pow_pos (52 - k))
    omega
  have hscale : (2 : Rat) ^ (52 - k) * (2 : Rat) ^ ((k : Int) - 53) = 1 / 2 := by
    rw [← zpow_natCast, ← zpow_add₀ (by norm_num)]
    rw [show ((52 - k : Nat) : Int) + ((k : Int) - 53) = -1 by omega]
    norm_num
  -- The number of the grid just above the half, which the product does not fall below.
  have hgrid : OnGrid ((n : Rat) / 2 + (2 : Rat) ^ ((k : Int) - 53)) := by
    refine ⟨n * 2 ^ (52 - k) + 1, (k : Int) - 53, hfit, by omega, ?_⟩
    push_cast
    rw [add_mul, mul_assoc, hscale]
    ring
  have hunit : (2 : Rat) ^ ((k : Int) - 53) ≤ n * (2 : Rat) ^ (-53 : Int) := by
    rw [sub_eq_add_neg, zpow_add₀ (by norm_num), zpow_natCast]
    refine mul_le_mul_of_nonneg_right ?_ (two_zpow_pos _).le
    exact_mod_cast hk₁
  have hn' : 0 < (n : Rat) := by exact_mod_cast hn
  have hproduct : (n : Rat) / 2 + n * (2 : Rat) ^ (-53 : Int) ≤ n * r.magnitude := by
    have := mul_le_mul_of_nonneg_left (Finite.half_add_le h) hn'.le
    linarith
  have hpos : 0 < (n : Rat) * r.magnitude := mul_pos hn' (by linarith)
  have hle := le_rounded hpos hgrid (le_trans (add_le_add le_rfl hunit) hproduct)
  exact lt_of_lt_of_le (lt_add_of_pos_right _ (two_zpow_pos _)) hle

end Binary64

namespace Tuning

open Binary64 (rounded significandEnd)

/-- A ratio above a bound and at most one. The settings are valid for the bound zero. -/
def RatioAbove (tuning : Tuning) (low : Rat) : Prop :=
  ∃ r : Binary64.Finite, tuning.thresholdRatio = .finite r ∧ low < r.value ∧ r.value ≤ 1

/-- Whether so many kills reach the threshold, compared as exact numbers. -/
def MetBy (tuning : Tuning) (total : UInt32) (kills : Nat) : Prop :=
  (tuning.threshold total).AtMost kills

instance (tuning : Tuning) (total : UInt32) (kills : Nat) : Decidable (tuning.MetBy total kills) :=
  inferInstanceAs (Decidable (Binary64.AtMost _ _))

theorem RatioAbove.mono {tuning : Tuning} {low low' : Rat} (h : tuning.RatioAbove low)
    (hl : low' ≤ low) : tuning.RatioAbove low' := by
  obtain ⟨r, hr, hlow, hone⟩ := h
  exact ⟨r, hr, lt_of_le_of_lt hl hlow, hone⟩

theorem ratioAbove_zero_iff {tuning : Tuning} :
    tuning.RatioAbove 0 ↔
      (Binary64.lt 0 tuning.thresholdRatio && tuning.thresholdRatio.le 1) = true := by
  obtain ⟨zero, hzero, hzs, hzm⟩ := Binary64.exists_ofNat_eq_finite (n := 0) (by decide)
  obtain ⟨one, hone, hos, hom⟩ := Binary64.exists_ofNat_eq_finite (n := 1) (by decide)
  have hzv : zero.value = 0 := by simp [Binary64.Finite.value, hzs, hzm]
  have hov : one.value = 1 := by simp [Binary64.Finite.value, hos, hom]
  have h0 : (0 : Binary64) = .finite zero := hzero
  have h1 : (1 : Binary64) = .finite one := hone
  cases hr : tuning.thresholdRatio with
  | nan => simp [RatioAbove, hr, Binary64.le]
  | infinite s => cases s <;> simp [RatioAbove, hr, Binary64.le, Binary64.lt, h0, h1]
  | finite r =>
    simp only [RatioAbove, hr, Binary64.lt, Binary64.le, h0, h1, hzv, hov, Binary64.finite.injEq]
    constructor
    · rintro ⟨_, rfl, hlow, hle⟩
      simp [hlow, hlow.le, hle]
    · intro h
      simp only [Bool.and_eq_true, decide_eq_true_eq, Bool.not_eq_eq_eq_not, Bool.not_true,
        decide_eq_false_iff_not, not_le] at h
      exact ⟨r, rfl, h.1.2, h.2⟩

theorem exists_threshold_eq_finite {tuning : Tuning} {r : Binary64.Finite} (total : UInt32)
    (hr : tuning.thresholdRatio = .finite r) (hpos : 0 < r.value) (hone : r.value ≤ 1) :
    ∃ t : Binary64.Finite, tuning.threshold total = .finite t ∧
      t.value = rounded (total.toNat * r.value) := by
  have htotal : total.toNat ≤ significandEnd := by
    have := total.toNat_lt
    simp only [significandEnd]
    omega
  obtain ⟨x, hx, hxs, hxm⟩ := Binary64.exists_ofNat_eq_finite htotal
  have hrs := Binary64.Finite.not_negative_of_pos hpos
  have hrm := Binary64.Finite.value_of_not_negative hrs
  rw [hrm] at hone hpos
  have hsmall : x.magnitude * r.magnitude ≤ 2 ^ 64 := by
    rw [hxm]
    calc (total.toNat : Rat) * r.magnitude ≤ total.toNat * 1 :=
          mul_le_mul_of_nonneg_left hone (by positivity)
      _ ≤ significandEnd := by rw [mul_one]; exact_mod_cast htotal
      _ ≤ 2 ^ 64 := by norm_num [significandEnd]
  obtain ⟨t, ht, hts, htm⟩ := Binary64.exists_mul_eq_finite hxs hrs hsmall
  refine ⟨t, ?_, ?_⟩
  · rw [threshold, hx, hr, ht]
  · rw [Binary64.Finite.value_of_not_negative hts, htm, hxm, hrm]

/-- The threshold lies above zero and is no more than all the kills. -/
theorem exists_threshold_bounds {tuning : Tuning} {total : UInt32} (h : tuning.RatioAbove 0)
    (hpos : 0 < total) :
    ∃ t : Binary64.Finite, tuning.threshold total = .finite t ∧ 0 < t.value ∧
      t.value ≤ total.toNat := by
  obtain ⟨r, hr, hlow, hone⟩ := h
  obtain ⟨t, ht, htv⟩ := exists_threshold_eq_finite total hr hlow hone
  have htotal : (1 : Rat) ≤ total.toNat := by
    have : 0 < total.toNat := UInt32.lt_iff_toNat_lt.mp hpos
    exact_mod_cast this
  have hproduct : 0 < (total.toNat : Rat) * r.value := mul_pos (by linarith) hlow
  refine ⟨t, ht, ?_, ?_⟩
  · have hgrid := r.onGrid
    rw [← Binary64.Finite.value_of_not_negative (Binary64.Finite.not_negative_of_pos hlow)] at hgrid
    rw [htv]
    exact lt_of_lt_of_le hlow
      (Binary64.le_rounded hproduct hgrid (le_mul_of_one_le_left hlow.le htotal))
  · have hgrid : Binary64.OnGrid (total.toNat : Rat) := by
      apply Binary64.onGrid_natCast
      have := total.toNat_lt
      simp only [significandEnd]
      omega
    rw [htv]
    exact Binary64.rounded_le hproduct hgrid (mul_le_of_le_one_right (by linarith) hone)

theorem MetBy.mono {tuning : Tuning} {total : UInt32} {a b : Nat} (h : tuning.MetBy total a)
    (hab : a ≤ b) : tuning.MetBy total b := by
  have hab' : (a : Rat) ≤ b := by exact_mod_cast hab
  simp only [MetBy] at h ⊢
  cases ht : tuning.threshold total with
  | nan => simp [ht, Binary64.AtMost] at h
  | infinite s => cases s <;> simp [ht, Binary64.AtMost] at h ⊢
  | finite t =>
    simp only [ht, Binary64.AtMost] at h ⊢
    exact le_trans h hab'

/-- With no less of a ratio, and no fewer kills in all, no fewer kills are asked for. -/
theorem MetBy.of_le {tuning tuning' : Tuning} {total total' : UInt32} {kills : Nat}
    (h : tuning'.MetBy total' kills) (hratio : tuning.RatioAbove 0) (hratio' : tuning'.RatioAbove 0)
    (hle : tuning.thresholdRatio.le tuning'.thresholdRatio = true) (htotal : total ≤ total') :
    tuning.MetBy total kills := by
  obtain ⟨r, hr, hlow, hone⟩ := hratio
  obtain ⟨r', hr', hlow', hone'⟩ := hratio'
  obtain ⟨t, ht, hvalue⟩ := exists_threshold_eq_finite total hr hlow hone
  obtain ⟨t', ht', hvalue'⟩ := exists_threshold_eq_finite total' hr' hlow' hone'
  simp only [hr, hr', Binary64.le, decide_eq_true_eq] at hle
  have htotal' : (total.toNat : Rat) ≤ total'.toNat := by
    exact_mod_cast UInt32.le_iff_toNat_le.mp htotal
  have hproduct : (total.toNat : Rat) * r.value ≤ total'.toNat * r'.value :=
    mul_le_mul htotal' hle hlow.le (Nat.cast_nonneg _)
  simp only [MetBy, ht', Binary64.AtMost, hvalue'] at h
  simp only [MetBy, ht, Binary64.AtMost, hvalue]
  exact le_trans (Binary64.rounded_mono (mul_nonneg (Nat.cast_nonneg _) hlow.le) hproduct) h

theorem not_metBy_zero {tuning : Tuning} {total : UInt32} (h : tuning.RatioAbove 0)
    (hpos : 0 < total) : ¬ tuning.MetBy total 0 := by
  obtain ⟨t, ht, hlow, _⟩ := exists_threshold_bounds h hpos
  simpa [MetBy, ht, Binary64.AtMost] using hlow

/-- Kills that do not reach the threshold are fewer than all, so adding one more count to them
stays far from the end of a word. -/
theorem lt_total_of_not_metBy {tuning : Tuning} {total : UInt32} {kills : Nat}
    (h : tuning.RatioAbove 0) (hpos : 0 < total) (hn : ¬ tuning.MetBy total kills) :
    kills < total.toNat := by
  obtain ⟨t, ht, _, hle⟩ := exists_threshold_bounds h hpos
  simp only [MetBy, ht, Binary64.AtMost, not_le] at hn
  exact_mod_cast lt_of_lt_of_le hn hle

/-- The comparison of doubles that the walk makes is the comparison of the numbers. -/
theorem reaches_iff {tuning : Tuning} {total : UInt32} (h : tuning.RatioAbove 0)
    (hpos : 0 < total) (tally : Tally) (f : Faction) :
    tally.reaches f (tuning.threshold total) = true ↔
      tuning.MetBy total (tally.kills f).toNat := by
  obtain ⟨t, ht, hlow, hle⟩ := exists_threshold_bounds h hpos
  have hmoderate : t.value ≤ significandEnd := by
    refine le_trans hle ?_
    have := total.toNat_lt
    exact_mod_cast (by simp only [significandEnd]; omega : total.toNat ≤ significandEnd)
  simp only [Tally.reaches, MetBy, ht, Binary64.AtMost]
  exact Binary64.le_ofNat_iff hlow.le hmoderate (UInt64.toNat_lt _)

/-- A ratio above one half cannot be met twice out of the same kills. -/
theorem not_metBy_both {tuning : Tuning} {total : UInt32} {a b : Nat}
    (h : tuning.RatioAbove (1 / 2)) (hpos : 0 < total) (hab : a + b ≤ total.toNat) :
    ¬ (tuning.MetBy total a ∧ tuning.MetBy total b) := by
  obtain ⟨r, hr, hlow, hone⟩ := h
  have hrpos : 0 < r.value := by linarith
  have hrm := Binary64.Finite.value_of_not_negative (Binary64.Finite.not_negative_of_pos hrpos)
  obtain ⟨t, ht, htv⟩ := exists_threshold_eq_finite total hr hrpos hone
  have htotal : 0 < total.toNat := UInt32.lt_iff_toNat_lt.mp hpos
  have hend : total.toNat < significandEnd := by
    have := total.toNat_lt
    simp only [significandEnd]
    omega
  have hhalf := Binary64.half_lt_rounded htotal hend (hrm ▸ hlow)
  rw [← hrm, ← htv] at hhalf
  rintro ⟨ha, hb⟩
  simp only [MetBy, ht, Binary64.AtMost] at ha hb
  have hsum : (a : Rat) + b ≤ total.toNat := by exact_mod_cast hab
  linarith

end Tuning

end Allegiance
