import Allegiance.Classification.Walk
import Allegiance.Proofs.Threshold

namespace Allegiance

namespace Tuning

open Binary64 (rounded significandEnd)

/-- The double that stands for four fifths lies above them by their 2⁻⁵⁴th part. -/
theorem exists_defaultRatio_eq : ∃ r : Binary64.Finite, defaultRatio = .finite r ∧
    r.value = 4 / 5 + 4 / 5 * (2 : Rat) ^ (-54 : Int) := by
  refine ⟨⟨false, 7205759403792794, -53, by decide⟩, by decide +kernel, ?_⟩
  norm_num [Binary64.Finite.value, Binary64.Finite.magnitude]

section Product

variable {n k : Nat} {ratio : Rat}

/-- Fewer kills than four in five stay below the rounded product: the next eighth is on the grid. -/
theorem lt_rounded_of_lt (hn : n < 2 ^ 32) (hratio : 4 / 5 ≤ ratio) (h : 5 * k < 4 * n) :
    (k : Rat) < rounded (n * ratio) := by
  have hgrid : Binary64.OnGrid ((k : Rat) + 1 / 8) := by
    refine ⟨8 * k + 1, -3, by simp only [significandEnd]; omega, by omega, ?_⟩
    push_cast
    norm_num
    ring
  have hk : (5 : Rat) * k + 1 ≤ 4 * n := by exact_mod_cast h
  have hnpos : 0 < (n : Rat) := by exact_mod_cast (by omega : 0 < n)
  have hproduct : (4 : Rat) / 5 * n ≤ n * ratio := by
    rw [mul_comm (4 / 5 : Rat)]
    exact mul_le_mul_of_nonneg_left hratio hnpos.le
  have hpos : 0 < (n : Rat) * ratio := mul_pos hnpos (by linarith)
  have := Binary64.le_rounded hpos hgrid (by linarith)
  linarith

/-- More kills than four in five are at least the rounded product. -/
theorem rounded_le_of_lt (hn : n < 2 ^ 32) (hratio : 0 < ratio)
    (hratio' : ratio ≤ 4 / 5 + 4 / 5 * (2 : Rat) ^ (-54 : Int)) (hnpos : 0 < n)
    (h : 4 * n < 5 * k) : rounded (n * ratio) ≤ k := by
  have hn' : 0 < (n : Rat) := by exact_mod_cast hnpos
  have hbound : (n : Rat) < 2 ^ 32 := by exact_mod_cast hn
  have hpos : 0 < (n : Rat) * ratio := mul_pos hn' hratio
  have hproduct : (n : Rat) * ratio ≤ n * (4 / 5 + 4 / 5 * (2 : Rat) ^ (-54 : Int)) :=
    mul_le_mul_of_nonneg_left hratio' hn'.le
  norm_num at hproduct
  -- Beyond all the kills there may be no grid; but all of them are enough.
  have hleast : rounded (n * ratio) ≤ (min k n : Nat) := by
    refine Binary64.rounded_le hpos
      (Binary64.onGrid_natCast (by simp only [significandEnd]; omega)) ?_
    have hmin : (4 : Rat) * n + 1 ≤ 5 * (min k n : Nat) := by
      exact_mod_cast (by omega : 4 * n + 1 ≤ 5 * min k n)
    linarith
  exact le_trans hleast (by exact_mod_cast min_le_left k n)

/-- Exactly four kills in five are the rounded product: the excess is less than half a unit of the
last place. -/
theorem rounded_eq_of_eq (hn : n < 2 ^ 32) (hnpos : 0 < n) (h : 4 * n = 5 * k) :
    rounded (n * (4 / 5 + 4 / 5 * (2 : Rat) ^ (-54 : Int))) = k := by
  have hkpos : 0 < k := by omega
  have hk : (n : Rat) * (4 / 5) = k := by
    have : (4 : Rat) * n = 5 * k := by exact_mod_cast h
    linarith
  have hsplit : (n : Rat) * (4 / 5 + 4 / 5 * (2 : Rat) ^ (-54 : Int)) =
      k + k * (2 : Rat) ^ (-54 : Int) := by
    rw [← hk]
    ring
  have hexcess : (k : Rat) * (2 : Rat) ^ (-54 : Int) < (2 : Rat) ^ ((k.log2 : Int) - 53) := by
    have hlog : (k : Rat) < (2 : Rat) ^ ((k.log2 : Int) + 1) := by
      exact_mod_cast Nat.lt_log2_self (n := k)
    calc (k : Rat) * (2 : Rat) ^ (-54 : Int)
        < (2 : Rat) ^ ((k.log2 : Int) + 1) * (2 : Rat) ^ (-54 : Int) :=
          mul_lt_mul_of_pos_right hlog (Binary64.two_zpow_pos _)
      _ = (2 : Rat) ^ ((k.log2 : Int) - 53) := by
          rw [← zpow_add₀ (by norm_num)]
          congr 1
          ring
  rw [hsplit]
  exact Binary64.rounded_natCast_add hkpos (by simp only [significandEnd]; omega)
    (by positivity) hexcess

theorem rounded_le_iff (hn : n < 2 ^ 32) :
    rounded (n * (4 / 5 + 4 / 5 * (2 : Rat) ^ (-54 : Int))) ≤ k ↔ 4 * n ≤ 5 * k := by
  rcases Nat.eq_zero_or_pos n with rfl | hnpos
  · simp [Binary64.rounded_zero]
  · rcases Nat.lt_trichotomy (4 * n) (5 * k) with h | h | h
    · exact iff_of_true (rounded_le_of_lt hn (by positivity) le_rfl hnpos h) h.le
    · exact iff_of_true (rounded_eq_of_eq hn hnpos h).le h.le
    · refine iff_of_false (not_le.mpr (lt_rounded_of_lt hn ?_ h)) (by omega)
      exact le_add_of_nonneg_right (by positivity)

end Product

/-- A test against the threshold of the standard ratio is a test for four in five: of any kills that
fit the word they are kept in, and also where there are no kills in all. -/
theorem reaches_defaultRatio_iff (policy : ZeroKillPolicy) (total : UInt32) (tally : Tally)
    (f : Faction) :
    tally.reaches f (threshold ⟨defaultRatio, policy⟩ total) = true ↔
      4 * total.toNat ≤ 5 * (tally.kills f).toNat := by
  obtain ⟨r, hr, hvalue⟩ := exists_defaultRatio_eq
  have hpos : 0 < r.value := by
    rw [hvalue]
    positivity
  have hone : r.value ≤ 1 := by
    rw [hvalue]
    norm_num
  obtain ⟨t, ht, htv⟩ : ∃ t : Binary64.Finite,
      threshold ⟨defaultRatio, policy⟩ total = .finite t ∧
        t.value = rounded (total.toNat * r.value) :=
    exists_threshold_eq_finite total hr hpos hone
  have hnonneg : 0 ≤ t.value := by
    rw [htv]
    exact Binary64.rounded_nonneg (mul_nonneg (Nat.cast_nonneg _) hpos.le)
  rw [hvalue] at htv
  -- No threshold is above all the kills there can be, so it is compared without loss.
  have hmoderate : t.value ≤ (significandEnd : Nat) := by
    have := total.toNat_lt
    rw [htv]
    exact (rounded_le_iff total.toNat_lt).mpr (by simp only [significandEnd]; omega)
  rw [Tally.reaches, ht, Binary64.le_ofNat_iff hnonneg (by exact_mod_cast hmoderate)
    (UInt64.toNat_lt _), htv]
  exact rounded_le_iff total.toNat_lt

end Tuning

/-- The walk with a test on whole numbers in the place of the threshold. -/
def walkBy (side : String → Option Faction) (enough : Nat → Bool) :
    List (String × UInt32) → Tally → Label
  | [], tally => tally.fallback
  | (weapon, count) :: rest, tally =>
    let tally := tally.add (side weapon) count
    if enough (tally.kills .axis).toNat then .axis
    else if enough (tally.kills .allies).toNat then .allies
    else walkBy side enough rest tally

theorem walk_eq_walkBy {side : String → Option Faction} {threshold : Binary64}
    {enough : Nat → Bool}
    (h : ∀ (t : Tally) f, t.reaches f threshold = enough (t.kills f).toNat)
    (es : List (String × UInt32)) (tally : Tally) :
    walk side threshold es tally = walkBy side enough es tally := by
  induction es generalizing tally with
  | nil => rfl
  | cons e es ih =>
    simp only [walk, walkBy, Tally.dominant, h]
    split_ifs with haxis hallies
    · rfl
    · rfl
    · exact ih _

def fourInFive (total : UInt32) (kills : Nat) : Bool := 4 * total.toNat ≤ 5 * kills

/-- The standard ratio is no double, but with what stands for it every test of the walk is exact:
the label is that of a walk which asks for four kills in five in whole numbers. That holds for every
record, whether it adds up or not. -/
theorem classify_defaultRatio (t : Taxonomy) (policy : ZeroKillPolicy) (total : UInt32)
    (u : Usage) :
    (∀ (tally : Tally) (f : Faction),
      tally.reaches f (Tuning.threshold ⟨Tuning.defaultRatio, policy⟩ total) =
        fourInFive total (tally.kills f).toNat) ∧
    classify t ⟨Tuning.defaultRatio, policy⟩ total u =
      (if total = 0 ∧ policy = .unknown then .unknown
      else walkBy t.factionOf (fourInFive total) u.byCountDesc .empty) := by
  have htest : ∀ (tally : Tally) (f : Faction),
      tally.reaches f (Tuning.threshold ⟨Tuning.defaultRatio, policy⟩ total) =
        fourInFive total (tally.kills f).toNat := by
    intro tally f
    rw [Bool.eq_iff_iff, Tuning.reaches_defaultRatio_iff, fourInFive, decide_eq_true_iff]
  refine ⟨htest, ?_⟩
  rw [classify, walk_eq_walkBy htest]

end Allegiance
