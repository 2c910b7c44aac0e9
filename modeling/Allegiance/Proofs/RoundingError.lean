import Mathlib.Algebra.Order.Field.Power
import Mathlib.Tactic.Linarith
import Mathlib.Tactic.Positivity
import Mathlib.Tactic.Ring
import Allegiance.Binary64.Decimal
import Allegiance.Proofs.Rounding

namespace Allegiance.Binary64

/-- Half a unit of the last place that a whole number has as a double. -/
def halfUnit (n : Nat) : Rat := (2 : Rat) ^ ((n.log2 : Int) - 53)

theorem halfUnit_pos (n : Nat) : 0 < halfUnit n := two_zpow_pos _

theorem halfUnit_le {n : Nat} (hn : 0 < n) : halfUnit n ≤ n * (2 : Rat) ^ (-53 : Int) := by
  rw [halfUnit, sub_eq_add_neg, zpow_add₀ (by norm_num)]
  exact mul_le_mul_of_nonneg_right (two_zpow_log2_le hn) (two_zpow_pos _).le

theorem abs_nearestEven_sub_le (q : Rat) : |(nearestEven q : Rat) - q| ≤ 1 / 2 := by
  have hlow := Rat.floor_le q
  have hhigh := Rat.lt_floor_add_one q
  push_cast at hhigh
  rw [abs_le]
  simp only [nearestEven]
  split_ifs with hdown hup
  all_goals
    push_cast
    constructor <;> linarith

theorem abs_rounded_sub_le (q : Rat) : |rounded q - q| ≤ (2 : Rat) ^ (lastExponent q - 1) := by
  have hunit := two_zpow_pos (lastExponent q)
  have hq : rounded q - q =
      (nearestEven (q / 2 ^ lastExponent q) - q / 2 ^ lastExponent q) * 2 ^ lastExponent q := by
    rw [rounded, sub_mul, div_mul_cancel₀ _ hunit.ne']
  rw [hq, abs_mul, abs_of_pos hunit, zpow_sub_one₀ (by norm_num), mul_comm]
  have herror := abs_nearestEven_sub_le (q / 2 ^ lastExponent q)
  rw [one_div] at herror
  exact mul_le_mul_of_nonneg_left herror hunit.le

theorem abs_rounded_sub_le_of_le_one {q : Rat} (hnonneg : 0 ≤ q) (hone : q ≤ 1) :
    |rounded q - q| ≤ (2 : Rat) ^ (-54 : Int) := by
  rcases hone.lt_or_eq with hlt | rfl
  · rcases hnonneg.eq_or_lt with rfl | hpos
    · rw [rounded_zero, sub_zero, abs_zero]
      exact (two_zpow_pos _).le
    · have hexp : binaryExponent q < 0 := binaryExponent_lt hpos (by simpa using hlt)
      refine le_trans (abs_rounded_sub_le q) (zpow_le_zpow_right₀ (by norm_num) ?_)
      simp only [lastExponent]
      omega
  · have hgrid : OnGrid ((1 : Nat) : Rat) := onGrid_natCast (by decide)
    rw [Nat.cast_one] at hgrid
    rw [rounded_eq_self one_pos hgrid, sub_self, abs_zero]
    exact (two_zpow_pos _).le

theorem nearestEven_add_half {n : Int} (h : n % 2 = 0) : nearestEven (n + 1 / 2) = n := by
  have hfloor : (n + 1 / 2 : Rat).floor = n := floor_intCast_add (by norm_num) (by norm_num)
  have hexcess : (n : Rat) + 1 / 2 - n = 1 / 2 := by ring
  simp only [nearestEven, hfloor, hexcess, h, lt_irrefl, ↓reduceIte]

/-- A tie above a whole number with room for another binary digit goes back to it. -/
theorem rounded_natCast_add_halfUnit {n : Nat} (hn : 0 < n) (h : n < fullSignificand) :
    rounded (n + halfUnit n) = n := by
  have hk : n.log2 ≤ 51 := by
    have := (Nat.log2_lt (k := 52) hn.ne').mpr (by simpa using h)
    omega
  have hsmall : halfUnit n < 1 := by
    calc halfUnit n < (2 : Rat) ^ (0 : Int) := zpow_lt_zpow_right₀ (by norm_num) (by omega)
      _ = 1 := zpow_zero 2
  have hlast : lastExponent (n + halfUnit n) = (n.log2 : Int) - 52 := by
    refine lastExponent_eq_of_log2 hn ?_ ?_
    · linarith [halfUnit_pos n]
    · exact lt_of_lt_of_le (add_lt_add_right hsmall _) (add_one_le_two_zpow_log2 n)
  have hunit := two_zpow_pos ((n.log2 : Int) - 52)
  have hhalf : halfUnit n / (2 : Rat) ^ ((n.log2 : Int) - 52) = 1 / 2 := by
    rw [halfUnit, ← zpow_sub₀ (by norm_num), show (n.log2 : Int) - 53 - (n.log2 - 52) = -1 by ring]
    norm_num
  -- In units of the last place the whole number is whole, and even.
  obtain ⟨w, hw⟩ := intCast_div_two_zpow (m := n) (d := 0) (e := (n.log2 : Int) - 51) (by omega)
  rw [zpow_zero, mul_one] at hw
  have heven : (n : Rat) / (2 : Rat) ^ ((n.log2 : Int) - 52) = ((2 * w : Int) : Rat) := by
    have hdouble : (2 : Rat) ^ ((n.log2 : Int) - 51) = 2 * (2 : Rat) ^ ((n.log2 : Int) - 52) := by
      rw [show (n.log2 : Int) - 51 = n.log2 - 52 + 1 by ring, zpow_add_one₀ (by norm_num), mul_comm]
    rw [hdouble] at hw
    push_cast
    rw [← hw]
    field_simp
  rw [rounded, hlast, add_div, hhalf, heven, nearestEven_add_half (by omega), ← heven,
    div_mul_cancel₀ _ hunit.ne']

/-- A whole number takes in everything up to half a unit beyond it: the tie as well, because the
whole number is even in units of the last place. -/
theorem rounded_le_natCast_iff {n : Nat} {q : Rat} (hn : 0 < n) (h : n < fullSignificand)
    (hq : 0 ≤ q) : rounded q ≤ n ↔ q ≤ n + halfUnit n := by
  constructor
  · intro hle
    by_contra hgt
    rw [not_le] at hgt
    have hhalf := halfUnit_pos n
    by_cases hhigh : q < (2 : Rat) ^ ((n.log2 : Int) + 1)
    · have hlast := lastExponent_eq_of_log2 hn (by linarith) hhigh
      have herror := abs_rounded_sub_le q
      rw [hlast, show (n.log2 : Int) - 52 - 1 = n.log2 - 53 by ring, ← halfUnit, abs_le] at herror
      linarith [herror.1]
    · have hgrid : OnGrid ((2 : Rat) ^ ((n.log2 : Int) + 1)) :=
        ⟨1, (n.log2 : Int) + 1, by decide, by omega, by simp⟩
      have hpower := le_rounded (by linarith [Nat.cast_nonneg (α := Rat) n]) hgrid (not_lt.mp hhigh)
      have := add_one_le_two_zpow_log2 n
      linarith
  · intro hle
    calc rounded q ≤ rounded (n + halfUnit n) := rounded_mono hq hle
      _ = n := rounded_natCast_add_halfUnit hn h

/-- What a decimal up to one is read as, unless it is too small to be read as anything. -/
theorem value_of_ofDecimal {p d : Nat} {x : Finite} (hp : p ≤ 10 ^ d)
    (h : ofDecimal false p (-(d : Int)) = .finite x) (hpos : 0 < x.value) :
    x.value = rounded (p / 10 ^ d) := by
  have hzero : zero false ≠ .finite x := by
    intro hx
    rw [← Binary64.finite.inj hx] at hpos
    simp [Finite.value, Finite.magnitude] at hpos
  have hquotient : (p : Rat) * (10 : Rat) ^ (-(d : Int)) = p / 10 ^ d := by
    rw [zpow_neg, zpow_natCast, div_eq_mul_inv]
  have hone : (p : Rat) / 10 ^ d ≤ 1 := by
    rw [div_le_one (by positivity)]
    exact_mod_cast hp
  obtain ⟨y, hy, hsign, hmagnitude⟩ := exists_round_eq_finite false
    (q := (p : Rat) / 10 ^ d) (by positivity) (lt_overflow (le_trans hone (by norm_num)))
  rw [ofDecimal] at h
  split_ifs at h with hnone hlarge hsmall
  · exact absurd h hzero
  · exact absurd h hzero
  · rw [hquotient, hy] at h
    rw [← Binary64.finite.inj h, Finite.value_of_not_negative hsign, hmagnitude]

end Allegiance.Binary64
