import Mathlib.Algebra.Order.Field.Power
import Mathlib.Data.Rat.Floor
import Mathlib.Tactic.FieldSimp
import Mathlib.Tactic.Linarith
import Mathlib.Tactic.Positivity
import Mathlib.Tactic.Ring
import Allegiance.Binary64.Arithmetic

namespace Allegiance.Binary64

/-- The numbers with at most 53 binary digits over the least place of the doubles. There is no
greatest one. -/
def OnGrid (q : Rat) : Prop :=
  ∃ (m : Nat) (e : Int), m ≤ significandEnd ∧ -1074 ≤ e ∧ q = m * (2 : Rat) ^ e

/-- What a number is rounded to where there is no greatest double. -/
def rounded (q : Rat) : Rat := nearestEven (q / 2 ^ lastExponent q) * (2 : Rat) ^ lastExponent q

theorem two_zpow_pos (e : Int) : 0 < (2 : Rat) ^ e := by positivity

theorem le_nearestEven {n : Int} {q : Rat} (h : (n : Rat) ≤ q) : n ≤ nearestEven q := by
  have hn : n ≤ q.floor := Rat.le_floor_iff.mpr h
  simp only [nearestEven]
  split
  · exact hn
  · split
    · omega
    · split
      · exact hn
      · omega

theorem nearestEven_le {n : Int} {q : Rat} (h : q ≤ n) : nearestEven q ≤ n := by
  have hf : q.floor ≤ n := Rat.intCast_le_intCast.mp (le_trans (Rat.floor_le q) h)
  by_cases he : q.floor = n
  · have hq : q - q.floor = 0 := by
      have := Rat.floor_le q
      rw [he] at this ⊢
      linarith
    simp only [nearestEven, hq]
    norm_num
    exact hf
  · simp only [nearestEven]
    split
    · exact hf
    · split
      · omega
      · split <;> omega

theorem floor_intCast_add {n : Int} {d : Rat} (hd : 0 ≤ d) (h : d < 1) :
    (n + d : Rat).floor = n := by
  have hle : n ≤ (n + d : Rat).floor := Rat.le_floor_iff.mpr (by linarith)
  have hlt : ¬ n + 1 ≤ (n + d : Rat).floor := by
    intro hle
    have := Rat.le_floor_iff.mp hle
    push_cast at this
    linarith
  omega

/-- Less than a half beyond a whole number is lost. -/
theorem nearestEven_add_of_lt {n : Int} {d : Rat} (hd : 0 ≤ d) (h : d < 1 / 2) :
    nearestEven (n + d) = n := by
  have hfloor : (n + d : Rat).floor = n := floor_intCast_add hd (by linarith)
  have hexcess : (n : Rat) + d - n = d := by ring
  simp only [nearestEven, hfloor, hexcess, h, ↓reduceIte]

theorem nearestEven_mono {p q : Rat} (h : p ≤ q) : nearestEven p ≤ nearestEven q := by
  have hfloor : p.floor ≤ q.floor := Rat.le_floor_iff.mpr (le_trans (Rat.floor_le p) h)
  have hp : p ≤ (p.floor + 1 : Int) := (Rat.lt_floor_add_one p).le
  rcases hfloor.lt_or_eq with hlt | heq
  · -- A whole number lies between.
    calc nearestEven p ≤ p.floor + 1 := nearestEven_le hp
      _ ≤ q.floor := hlt
      _ ≤ nearestEven q := le_nearestEven (Rat.floor_le q)
  · by_cases hlow : p - p.floor < 1 / 2
    · have hdown : nearestEven p = p.floor := by simp only [nearestEven, hlow, ↓reduceIte]
      rw [hdown, heq]
      exact le_nearestEven (Rat.floor_le q)
    · by_cases hhigh : 1 / 2 < q - q.floor
      · have hup : nearestEven q = q.floor + 1 := by
          simp only [nearestEven, hhigh, not_lt.mpr hhigh.le, ↓reduceIte]
        rw [hup, ← heq]
        exact nearestEven_le hp
      · -- Both are half a unit above the same whole number.
        rw [← heq] at hhigh
        have hsame : p = q := by linarith
        rw [hsame]

/-- The lengths of numerator and denominator tell the size of a quotient up to a factor of two. -/
theorem between_log2 {q : Rat} (h : 0 < q) :
    (2 : Rat) ^ ((q.num.natAbs.log2 : Int) - q.den.log2 - 1) ≤ q ∧
      q < (2 : Rat) ^ ((q.num.natAbs.log2 : Int) - q.den.log2 + 1) := by
  have hnum : q.num.natAbs ≠ 0 := by
    have := Rat.num_pos.mpr h
    omega
  have hq : q = (q.num.natAbs : Rat) / q.den := by
    conv_lhs => rw [← Rat.num_div_den q]
    rw [Nat.cast_natAbs, abs_of_pos (Rat.num_pos.mpr h)]
  have hd : 0 < (q.den : Rat) := by exact_mod_cast q.den_pos
  have hn₁ : ((2 : Rat) ^ (q.num.natAbs.log2 : Int)) ≤ q.num.natAbs := by
    rw [zpow_natCast]
    exact_mod_cast Nat.log2_self_le hnum
  have hn₂ : (q.num.natAbs : Rat) < (2 : Rat) ^ ((q.num.natAbs.log2 : Int) + 1) := by
    have := Nat.lt_log2_self (n := q.num.natAbs)
    exact_mod_cast this
  have hd₁ : ((2 : Rat) ^ (q.den.log2 : Int)) ≤ q.den := by
    rw [zpow_natCast]
    exact_mod_cast Nat.log2_self_le q.den_ne_zero
  have hd₂ : (q.den : Rat) < (2 : Rat) ^ ((q.den.log2 : Int) + 1) := by
    have := Nat.lt_log2_self (n := q.den)
    exact_mod_cast this
  -- From here on only the four bounds count, not what the two lengths are.
  generalize (q.num.natAbs.log2 : Int) = a at *
  generalize (q.den.log2 : Int) = b at *
  constructor
  · rw [hq, le_div_iff₀ hd]
    calc (2 : Rat) ^ (a - b - 1) * q.den ≤ (2 : Rat) ^ (a - b - 1) * (2 : Rat) ^ (b + 1) := by
          exact mul_le_mul_of_nonneg_left hd₂.le (two_zpow_pos _).le
      _ = (2 : Rat) ^ a := by rw [← zpow_add₀ (by norm_num)]; congr 1; ring
      _ ≤ q.num.natAbs := hn₁
  · rw [hq, div_lt_iff₀ hd]
    calc (q.num.natAbs : Rat) < (2 : Rat) ^ (a + 1) := hn₂
      _ = (2 : Rat) ^ (a - b + 1) * (2 : Rat) ^ b := by
          rw [← zpow_add₀ (by norm_num)]; congr 1; ring
      _ ≤ (2 : Rat) ^ (a - b + 1) * q.den :=
          mul_le_mul_of_nonneg_left hd₁ (two_zpow_pos _).le

theorem two_zpow_binaryExponent_le {q : Rat} (h : 0 < q) : (2 : Rat) ^ binaryExponent q ≤ q := by
  simp only [binaryExponent]
  split
  · assumption
  · exact (between_log2 h).1

theorem lt_two_zpow_binaryExponent {q : Rat} (h : 0 < q) :
    q < (2 : Rat) ^ (binaryExponent q + 1) := by
  simp only [binaryExponent]
  split
  · exact (between_log2 h).2
  · rename_i hlt
    simpa using hlt

theorem binaryExponent_lt {q : Rat} {k : Int} (h : 0 < q) (hk : q < (2 : Rat) ^ k) :
    binaryExponent q < k := by
  have := lt_of_le_of_lt (two_zpow_binaryExponent_le h) hk
  exact (zpow_lt_zpow_iff_right₀ (by norm_num)).mp this

theorem binaryExponent_eq {q : Rat} {k : Int} (hlow : (2 : Rat) ^ k ≤ q)
    (hhigh : q < (2 : Rat) ^ (k + 1)) : binaryExponent q = k := by
  have hq : 0 < q := lt_of_lt_of_le (two_zpow_pos k) hlow
  have hlt := binaryExponent_lt hq hhigh
  have hle : (2 : Rat) ^ k < (2 : Rat) ^ (binaryExponent q + 1) :=
    lt_of_le_of_lt hlow (lt_two_zpow_binaryExponent hq)
  have := (zpow_lt_zpow_iff_right₀ (by norm_num)).mp hle
  omega

theorem div_lastExponent_lt {q : Rat} (h : 0 < q) :
    q / 2 ^ lastExponent q < significandEnd := by
  rw [div_lt_iff₀ (two_zpow_pos _)]
  have he : binaryExponent q + 1 ≤ 53 + lastExponent q := by
    simp only [lastExponent]
    omega
  calc q < (2 : Rat) ^ (binaryExponent q + 1) := lt_two_zpow_binaryExponent h
    _ ≤ (2 : Rat) ^ (53 + lastExponent q) := zpow_le_zpow_right₀ (by norm_num) he
    _ = significandEnd * (2 : Rat) ^ lastExponent q := by
        rw [zpow_add₀ (by norm_num)]
        norm_num [significandEnd]

/-- In units of its last place a number has all 53 digits, unless that is the least place. -/
theorem le_div_lastExponent {q : Rat} (h : 0 < q) (he : lastExponent q ≠ -1074) :
    (fullSignificand : Rat) ≤ q / 2 ^ lastExponent q := by
  rw [le_div_iff₀ (two_zpow_pos _)]
  have hb : lastExponent q = binaryExponent q - 52 := by
    simp only [lastExponent] at he ⊢
    omega
  calc (fullSignificand : Rat) * (2 : Rat) ^ lastExponent q
      = (2 : Rat) ^ (52 + lastExponent q) := by
        rw [zpow_add₀ (by norm_num)]
        norm_num [fullSignificand]
    _ = (2 : Rat) ^ binaryExponent q := by rw [hb]; congr 1; ring
    _ ≤ q := two_zpow_binaryExponent_le h

theorem neg_1074_le_lastExponent (q : Rat) : -1074 ≤ lastExponent q := by
  simp only [lastExponent]
  omega

theorem onGrid_natCast {n : Nat} (h : n ≤ significandEnd) : OnGrid n :=
  ⟨n, 0, h, by omega, by simp⟩

theorem Finite.onGrid (x : Finite) : OnGrid x.magnitude :=
  ⟨x.significand, x.exponent, x.normal.1.le, x.normal.2.1, rfl⟩

/-- A number on the grid is a whole number of units of any place up to its own. -/
theorem intCast_div_two_zpow {m : Nat} {d e : Int} (h : e ≤ d) :
    ∃ n : Int, (m : Rat) * 2 ^ d / 2 ^ e = n := by
  obtain ⟨k, rfl⟩ : ∃ k : Nat, d = k + e := ⟨(d - e).toNat, by omega⟩
  refine ⟨m * 2 ^ k, ?_⟩
  have hp := (two_zpow_pos e).ne'
  rw [zpow_add₀ (by norm_num), zpow_natCast, ← mul_assoc, mul_div_assoc, div_self hp]
  push_cast
  ring

/-- A place below the last one of `q` lies so low that 53 digits over it do not reach beyond the
least number with 53 digits over the last place. -/
theorem onGrid_le_of_lt {m : Nat} {d e : Int} (hm : m ≤ significandEnd) (h : d < e) :
    (m : Rat) * 2 ^ d ≤ fullSignificand * 2 ^ e := by
  calc (m : Rat) * 2 ^ d ≤ significandEnd * 2 ^ d := by
        have : (m : Rat) ≤ significandEnd := by exact_mod_cast hm
        exact mul_le_mul_of_nonneg_right this (two_zpow_pos d).le
    _ = fullSignificand * (2 : Rat) ^ (d + 1) := by
        rw [zpow_add₀ (by norm_num)]
        norm_num [significandEnd, fullSignificand]
        ring
    _ ≤ fullSignificand * (2 : Rat) ^ e := by
        refine mul_le_mul_of_nonneg_left ?_ (by norm_num)
        exact zpow_le_zpow_right₀ (by norm_num) (by omega)

theorem le_rounded {p q : Rat} (hq : 0 < q) (hp : OnGrid p) (h : p ≤ q) : p ≤ rounded q := by
  obtain ⟨m, d, hm, hd, rfl⟩ := hp
  rw [rounded, ← div_le_iff₀ (two_zpow_pos _)]
  by_cases he : lastExponent q ≤ d
  · obtain ⟨n, hn⟩ := intCast_div_two_zpow (m := m) he
    have hnq : (n : Rat) ≤ q / 2 ^ lastExponent q := by
      rw [← hn]
      exact div_le_div_of_nonneg_right h (two_zpow_pos _).le
    rw [hn]
    exact_mod_cast le_nearestEven hnq
  · have hfull : ((fullSignificand : Int) : Rat) ≤ q / 2 ^ lastExponent q := by
      exact_mod_cast le_div_lastExponent hq (by omega)
    have hlow := onGrid_le_of_lt hm (not_le.mp he)
    rw [div_le_iff₀ (two_zpow_pos _)]
    refine le_trans hlow (mul_le_mul_of_nonneg_right ?_ (two_zpow_pos _).le)
    exact_mod_cast le_nearestEven hfull

theorem rounded_le {p q : Rat} (hq : 0 < q) (hp : OnGrid p) (h : q ≤ p) : rounded q ≤ p := by
  obtain ⟨m, d, hm, hd, rfl⟩ := hp
  rw [rounded, ← le_div_iff₀ (two_zpow_pos _)]
  by_cases he : lastExponent q ≤ d
  · obtain ⟨n, hn⟩ := intCast_div_two_zpow (m := m) he
    have hnq : q / 2 ^ lastExponent q ≤ n := by
      rw [← hn]
      exact div_le_div_of_nonneg_right h (two_zpow_pos _).le
    rw [hn]
    exact_mod_cast nearestEven_le hnq
  · -- Then `q` is squeezed onto the least number with 53 digits over its last place.
    have hfull := le_div_lastExponent hq (by omega)
    have hlow := onGrid_le_of_lt hm (not_le.mp he)
    have hq' : q / 2 ^ lastExponent q = ((fullSignificand : Int) : Rat) := by
      refine le_antisymm ?_ (by exact_mod_cast hfull)
      rw [div_le_iff₀ (two_zpow_pos _)]
      exact le_trans h (by exact_mod_cast hlow)
    have hn := nearestEven_le hq'.le
    refine le_trans (Rat.intCast_le_intCast.mpr hn) ?_
    rw [← hq']
    exact div_le_div_of_nonneg_right h (two_zpow_pos _).le

theorem rounded_eq_self {q : Rat} (hq : 0 < q) (h : OnGrid q) : rounded q = q :=
  le_antisymm (rounded_le hq h le_rfl) (le_rounded hq h le_rfl)

theorem rounded_zero : rounded 0 = 0 := by
  have h : nearestEven 0 = 0 :=
    le_antisymm (nearestEven_le (by simp)) (le_nearestEven (by simp))
  simp [rounded, h]

theorem rounded_nonneg {q : Rat} (h : 0 ≤ q) : 0 ≤ rounded q := by
  rcases h.eq_or_lt with rfl | hpos
  · exact rounded_zero.ge
  · have hgrid : OnGrid ((0 : Nat) : Rat) := onGrid_natCast (by decide)
    rw [Nat.cast_zero] at hgrid
    exact le_rounded hpos hgrid h

theorem binaryExponent_mono {p q : Rat} (hp : 0 < p) (h : p ≤ q) :
    binaryExponent p ≤ binaryExponent q := by
  have hlt := lt_of_le_of_lt h (lt_two_zpow_binaryExponent (lt_of_lt_of_le hp h))
  have := binaryExponent_lt hp hlt
  omega

/-- Rounding keeps the order, so a rounded number never passes a number of the grid that the exact
one does not pass. Two numbers are either rounded at the same place, or a power of two lies between
them. -/
theorem rounded_mono {p q : Rat} (hp : 0 ≤ p) (h : p ≤ q) : rounded p ≤ rounded q := by
  rcases hp.eq_or_lt with rfl | hpos
  · rw [rounded_zero]
    exact rounded_nonneg h
  · have hqpos : 0 < q := lt_of_lt_of_le hpos h
    have hexp := binaryExponent_mono hpos h
    by_cases he : lastExponent p = lastExponent q
    · simp only [rounded, he]
      apply mul_le_mul_of_nonneg_right _ (two_zpow_pos _).le
      have hdiv : p / 2 ^ lastExponent q ≤ q / 2 ^ lastExponent q :=
        div_le_div_of_nonneg_right h (two_zpow_pos _).le
      exact_mod_cast nearestEven_mono hdiv
    · have hplace : binaryExponent p + 1 ≤ binaryExponent q ∧ -1074 ≤ binaryExponent q := by
        simp only [lastExponent] at he
        omega
      have hgrid : OnGrid ((2 : Rat) ^ binaryExponent q) :=
        ⟨1, binaryExponent q, by decide, hplace.2, by simp⟩
      have hbelow : p ≤ (2 : Rat) ^ binaryExponent q :=
        calc p ≤ (2 : Rat) ^ (binaryExponent p + 1) := (lt_two_zpow_binaryExponent hpos).le
          _ ≤ (2 : Rat) ^ binaryExponent q := zpow_le_zpow_right₀ (by norm_num) hplace.1
      calc rounded p ≤ (2 : Rat) ^ binaryExponent q := rounded_le hpos hgrid hbelow
        _ ≤ rounded q := le_rounded hqpos hgrid (two_zpow_binaryExponent_le hqpos)

theorem two_zpow_log2_le {n : Nat} (hn : 0 < n) : (2 : Rat) ^ (n.log2 : Int) ≤ n := by
  rw [zpow_natCast]
  exact_mod_cast Nat.log2_self_le hn.ne'

theorem add_one_le_two_zpow_log2 (n : Nat) : (n : Rat) + 1 ≤ (2 : Rat) ^ ((n.log2 : Int) + 1) := by
  exact_mod_cast Nat.lt_log2_self (n := n)

/-- The last place of a number that has as many binary digits before its point as a whole one. -/
theorem lastExponent_eq_of_log2 {n : Nat} {q : Rat} (hn : 0 < n) (hlow : (n : Rat) ≤ q)
    (hhigh : q < (2 : Rat) ^ ((n.log2 : Int) + 1)) : lastExponent q = (n.log2 : Int) - 52 := by
  rw [lastExponent, binaryExponent_eq (le_trans (two_zpow_log2_le hn) hlow) hhigh]
  omega

/-- Less than half a unit of the last place beyond a whole number is lost. -/
theorem rounded_natCast_add {n : Nat} {d : Rat} (hn : 0 < n) (hend : n < significandEnd)
    (hd : 0 ≤ d) (h : d < (2 : Rat) ^ ((n.log2 : Int) - 53)) : rounded (n + d) = n := by
  have hk : n.log2 ≤ 52 := by
    have := (Nat.log2_lt (k := 53) hn.ne').mpr (by simpa using hend)
    omega
  have hsmall : d < 1 := by
    refine lt_of_lt_of_le h ?_
    calc (2 : Rat) ^ ((n.log2 : Int) - 53) ≤ (2 : Rat) ^ (0 : Int) :=
          zpow_le_zpow_right₀ (by norm_num) (by omega)
      _ = 1 := zpow_zero 2
  have hlast : lastExponent (n + d) = (n.log2 : Int) - 52 := by
    apply lastExponent_eq_of_log2 hn (by linarith)
    linarith [add_one_le_two_zpow_log2 n]
  -- In units of the last place the whole number is whole, and the rest is less than a half.
  obtain ⟨w, hw⟩ := intCast_div_two_zpow (m := n) (d := 0) (e := (n.log2 : Int) - 52) (by omega)
  rw [zpow_zero, mul_one] at hw
  have hunit := two_zpow_pos ((n.log2 : Int) - 52)
  have hrest : d / (2 : Rat) ^ ((n.log2 : Int) - 52) < 1 / 2 := by
    rw [div_lt_iff₀ hunit]
    refine lt_of_lt_of_le h (le_of_eq ?_)
    rw [show (n.log2 : Int) - 53 = -1 + (n.log2 - 52) by ring, zpow_add₀ (by norm_num)]
    norm_num
  rw [rounded, hlast, add_div, hw, nearestEven_add_of_lt (div_nonneg hd hunit.le) hrest, ← hw,
    div_mul_cancel₀ _ hunit.ne']

theorem nearestEven_significand {q : Rat} (h : 0 < q) :
    0 ≤ nearestEven (q / 2 ^ lastExponent q) ∧
      nearestEven (q / 2 ^ lastExponent q) ≤ significandEnd ∧
      (lastExponent q ≠ -1074 →
        (fullSignificand : Int) ≤ nearestEven (q / 2 ^ lastExponent q)) := by
  refine ⟨le_nearestEven ?_, nearestEven_le ?_, fun he => le_nearestEven ?_⟩
  · exact_mod_cast (div_pos h (two_zpow_pos _)).le
  · exact_mod_cast (div_lastExponent_lt h).le
  · exact_mod_cast le_div_lastExponent h he

/-- Below the overflow bound, rounding gives the double of the rounded number. -/
theorem exists_round_eq_finite (s : Bool) {q : Rat} (h : 0 ≤ q)
    (hq : q < (2 : Rat) ^ (1023 : Int)) :
    ∃ x : Finite, round s q = .finite x ∧ x.negative = s ∧ x.magnitude = rounded q := by
  rcases h.eq_or_lt with rfl | h
  · exact ⟨⟨s, 0, -1074, by decide⟩, by simp [round, zero], rfl,
      by simp [Finite.magnitude, rounded_zero]⟩
  · obtain ⟨hnonneg, hle, hfull⟩ := nearestEven_significand h
    have hlow := neg_1074_le_lastExponent q
    have hhigh : lastExponent q ≤ 970 := by
      have := binaryExponent_lt h hq
      simp only [lastExponent]
      omega
    simp only [round, h.ne', ↓reduceIte, rounded]
    generalize lastExponent q = e at *
    generalize nearestEven (q / 2 ^ e) = n at *
    obtain ⟨m, rfl⟩ := Int.eq_ofNat_of_zero_le hnonneg
    rw [Int.toNat_natCast]
    -- Rounding up may fill the significand, and the number is then a power of two.
    by_cases hm : m = significandEnd
    · have hnormal : IsNormal fullSignificand (e + 1) := by
        refine ⟨by decide, by omega, by omega, .inl le_rfl⟩
      refine ⟨⟨s, fullSignificand, e + 1, hnormal⟩, ?_, rfl, ?_⟩
      · rw [if_pos hm, ofParts, dif_pos hnormal]
      · simp only [Finite.magnitude, hm, zpow_add₀ (by norm_num : (2 : Rat) ≠ 0)]
        norm_num [fullSignificand, significandEnd]
        ring
    · have hnormal : IsNormal m e := by
        refine ⟨by omega, hlow, by omega, ?_⟩
        by_cases he : e = -1074
        · exact .inr he
        · exact .inl (by have := hfull he; omega)
      refine ⟨⟨s, m, e, hnormal⟩, ?_, rfl, ?_⟩
      · rw [if_neg hm, ofParts, dif_pos hnormal]
      · simp [Finite.magnitude]

theorem lt_overflow {q : Rat} (h : q ≤ 2 ^ 64) : q < (2 : Rat) ^ (1023 : Int) := by
  refine lt_of_le_of_lt h ?_
  rw [← zpow_natCast]
  exact zpow_lt_zpow_right₀ (by norm_num) (by norm_num)

theorem exists_ofNat_eq_finite {n : Nat} (h : n ≤ significandEnd) :
    ∃ x : Finite, ofNat n = .finite x ∧ x.negative = false ∧ x.magnitude = n := by
  have hn : (n : Rat) ≤ 2 ^ 64 := by
    have : (n : Rat) ≤ significandEnd := by exact_mod_cast h
    exact le_trans this (by norm_num)
  obtain ⟨x, hx, hs, hm⟩ :=
    exists_round_eq_finite false (by positivity) (lt_overflow hn)
  refine ⟨x, hx, hs, hm.trans ?_⟩
  rcases Nat.eq_zero_or_pos n with rfl | hpos
  · simpa using rounded_zero
  · exact rounded_eq_self (by exact_mod_cast hpos) (onGrid_natCast h)

theorem Finite.value_of_not_negative {x : Finite} (h : x.negative = false) :
    x.value = x.magnitude := by
  simp [Finite.value, h]

theorem Finite.magnitude_nonneg (x : Finite) : 0 ≤ x.magnitude := by
  have := two_zpow_pos x.exponent
  simp only [Finite.magnitude]
  positivity

theorem Finite.not_negative_of_pos {x : Finite} (h : 0 < x.value) : x.negative = false := by
  cases hs : x.negative with
  | false => rfl
  | true =>
    have := x.magnitude_nonneg
    simp only [Finite.value, hs, ↓reduceIte] at h
    linarith

theorem Finite.value_eq_magnitude {x : Finite} (h : 0 ≤ x.value) : x.value = x.magnitude := by
  have := x.magnitude_nonneg
  simp only [Finite.value] at h ⊢
  split at h
  · rw [if_pos ‹_›]
    linarith
  · rw [if_neg ‹_›]

/-- Comparing a double of moderate size with a whole number as a double is comparing the numbers:
what is lost in the conversion lies beyond it. -/
theorem le_ofNat_iff {t : Finite} {n : Nat} (hnonneg : 0 ≤ t.value)
    (ht : t.value ≤ significandEnd) (hn : n < 2 ^ 64) :
    le (.finite t) (ofNat n) = true ↔ t.value ≤ n := by
  have hvalue := Finite.value_eq_magnitude hnonneg
  have hn' : (n : Rat) ≤ 2 ^ 64 := by exact_mod_cast hn.le
  obtain ⟨x, hx, hs, hm⟩ :=
    exists_round_eq_finite false (Nat.cast_nonneg' n) (lt_overflow hn')
  have hxv := Finite.value_of_not_negative hs
  rw [ofNat, hx]
  simp only [le, decide_eq_true_eq, hxv, hm]
  rcases Nat.eq_zero_or_pos n with rfl | hnpos
  · simp [rounded_zero]
  · have hnpos' : 0 < (n : Rat) := by exact_mod_cast hnpos
    constructor
    · intro h
      by_contra hlt
      have hsmall : n ≤ significandEnd := by
        exact_mod_cast (le_trans (not_le.mp hlt).le ht)
      rw [rounded_eq_self hnpos' (onGrid_natCast hsmall)] at h
      exact hlt h
    · intro h
      exact le_rounded hnpos' (hvalue ▸ t.onGrid) h

theorem exists_mul_eq_finite {x y : Finite} (hx : x.negative = false) (hy : y.negative = false)
    (h : x.magnitude * y.magnitude ≤ 2 ^ 64) :
    ∃ z : Finite, (finite x : Binary64) * finite y = .finite z ∧ z.negative = false ∧
      z.magnitude = rounded (x.magnitude * y.magnitude) := by
  have hnonneg := mul_nonneg x.magnitude_nonneg y.magnitude_nonneg
  obtain ⟨z, hz, hs, hm⟩ := exists_round_eq_finite false hnonneg (lt_overflow h)
  refine ⟨z, ?_, hs, hm⟩
  change mul (.finite x) (.finite y) = .finite z
  simp only [mul, hx, hy, bne_self_eq_false]
  exact hz

end Allegiance.Binary64
