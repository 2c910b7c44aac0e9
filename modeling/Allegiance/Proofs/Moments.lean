import Mathlib.Algebra.GroupWithZero.Nat
import Mathlib.Tactic.SplitIfs
import Allegiance.Instant.Reader

namespace Allegiance.Instant

theorem length_padded {width n : Nat} (hw : 0 < width) (h : n < 10 ^ width) :
    (padded width n).length = width := by
  have hle := (Nat.length_toDigits_le_iff (by decide) hw).mpr h
  simp only [padded, List.length_append, List.length_replicate]
  omega

theorem isDigit_of_mem_padded {width n : Nat} {c : Char} (h : c ∈ padded width n) :
    c.isDigit = true := by
  rcases List.mem_append.mp h with h | h
  · rw [List.eq_of_mem_replicate h]
    rfl
  · exact Nat.isDigit_of_mem_toDigits (by decide) (by decide) h

theorem ofDigitChars_padded (width n : Nat) : Nat.ofDigitChars 10 (padded width n) 0 = n := by
  simp [padded, Nat.ofDigitChars_append, Nat.ofDigitChars_replicate_zero]

theorem padded_ne_nil (width n : Nat) : padded width n ≠ [] := by
  simp [padded, Nat.toDigits_ne_nil]

theorem not_isWhiteSpace_of_isDigit {c : Char} (h : c.isDigit = true) :
    Text.isWhiteSpace c = false := by
  simp only [Char.isDigit, Bool.and_eq_true, decide_eq_true_eq, ge_iff_le] at h
  have hlow : 48 ≤ c.toNat := h.1
  have hhigh : c.toNat ≤ 57 := h.2
  simp only [Text.isWhiteSpace]
  grind

/-- No digit comes next. -/
def EndsDigits (rest : List Char) : Prop := ∀ c ∈ rest.head?, c.isDigit = false

theorem endsDigits_cons {c : Char} {rest : List Char} (h : c.isDigit = false := by decide) :
    EndsDigits (c :: rest) := by
  intro d hd
  rw [List.head?_cons, Option.mem_some] at hd
  exact hd ▸ h

theorem EndsDigits.takeWhile_eq_nil {rest : List Char} (h : EndsDigits rest) :
    rest.takeWhile Char.isDigit = [] := by
  cases rest with
  | nil => rfl
  | cons c rest => simp [h c rfl]

theorem EndsDigits.dropWhile_eq {rest : List Char} (h : EndsDigits rest) :
    rest.dropWhile Char.isDigit = rest := by
  cases rest with
  | nil => rfl
  | cons c rest => simp [h c rfl]

theorem EndsDigits.take {rest : List Char} (h : EndsDigits rest) (n : Nat) :
    EndsDigits (rest.take n) := by
  cases n with
  | zero => simp [EndsDigits]
  | succ n => 
    cases rest with
    | nil => exact h
    | cons c rest => exact endsDigits_cons (h c rfl)

namespace Scan

variable {α β : Type} {cs rest : List Char}

theorem bind_ok {first : Scan α} {next : α → Scan β} {a : α} (h : first cs = .ok (a, rest)) :
    (first >>= next) cs = next a rest := by
  change Except.bind (first cs) _ = _
  rw [h]
  rfl

/-- Digits are read as the number they spell, where no more of them come and no more are allowed. -/
theorem number_append {width : Option Nat} {ds : List Char} (hne : ds ≠ [])
    (hds : ∀ c ∈ ds, c.isDigit = true) (hwidth : ∀ w ∈ width, ds.length ≤ w)
    (hrest : EndsDigits rest) :
    number width (ds ++ rest) = .ok (Nat.ofDigitChars 10 ds 0, rest) := by
  have htake : (width.elim (ds ++ rest) (ds ++ rest).take).takeWhile Char.isDigit = ds := by
    cases width with
    | none =>
      rw [Option.elim_none, List.takeWhile_append_of_pos hds, hrest.takeWhile_eq_nil,
        List.append_nil]
    | some w =>
      rw [Option.elim_some, List.take_append, List.take_of_length_le (hwidth w rfl),
        List.takeWhile_append_of_pos hds, (hrest.take _).takeWhile_eq_nil, List.append_nil]
  cases ds with
  | nil => exact absurd rfl hne
  | cons c ds =>
    simp only [number, List.cons_append, hds c (by simp), ↓reduceIte]
    rw [← List.cons_append, htake, List.drop_left]
    rfl

theorem number_padded {width : Option Nat} {size n : Nat}
    (hwidth : ∀ w ∈ width, (padded size n).length ≤ w) (hrest : EndsDigits rest) :
    number width (padded size n ++ rest) = .ok (n, rest) := by
  rw [number_append (padded_ne_nil size n) (fun c => isDigit_of_mem_padded) hwidth hrest,
    ofDigitChars_padded]

/-- Blanks are looked for in vain before anything else. -/
theorem blank_cons {c : Char} (h : Text.isWhiteSpace c = false := by decide) :
    blank (c :: rest) = .ok ((), c :: rest) := by
  have htrim : Text.trimStart (c :: rest) = c :: rest := by simp [Text.trimStart, h]
  change Except.ok ((), Text.trimStart (c :: rest)) = _
  rw [htrim]

theorem blank_padded (width n : Nat) :
    blank (padded width n ++ rest) = .ok ((), padded width n ++ rest) := by
  cases hds : padded width n with
  | nil => exact absurd hds (padded_ne_nil width n)
  | cons c ds =>
    have hc : c.isDigit = true := isDigit_of_mem_padded (hds ▸ List.mem_cons_self)
    exact blank_cons (not_isWhiteSpace_of_isDigit hc)

theorem literal_cons (c : Char) : literal c (c :: rest) = .ok ((), rest) := by simp [literal]

theorem field_padded {low high n : Nat} (hlow : low ≤ n) (hhigh : n ≤ high) (h : n < 100)
    (hrest : EndsDigits rest) : field low high (padded 2 n ++ rest) = .ok (n, rest) := by
  have hlength : (padded 2 n).length = 2 := length_padded (by decide) h
  have hnumber : number (some 2) (padded 2 n ++ rest) = .ok (n, rest) :=
    number_padded (by simp [hlength]) hrest
  rw [field, bind_ok (blank_padded 2 n), bind_ok hnumber, if_pos ⟨hlow, hhigh⟩]
  rfl

theorem get_eq_ok : (get : Scan (List Char)) cs = .ok (cs, cs) := rfl

theorem set_eq_ok : (set rest : Scan Unit) cs = .ok ((), rest) := rfl

theorem pure_eq_ok (a : α) : (pure a : Scan α) cs = .ok (a, cs) := rfl

theorem padded_append_ne {c : Char} (h : c.isDigit = false) (width n : Nat) (tail : List Char) :
    padded width n ++ rest ≠ c :: tail := by
  intro heq
  cases hds : padded width n with
  | nil => exact padded_ne_nil width n hds
  | cons d ds =>
    have hd : d.isDigit = true := isDigit_of_mem_padded (hds ▸ List.mem_cons_self)
    rw [hds, List.cons_append, List.cons.injEq] at heq
    rw [heq.1, h] at hd
    cases hd

theorem year_in_range {y : Int} (hlow : -2147483648 ≤ y) (hhigh : y < 2147483648) :
    (if -2147483648 ≤ y ∧ y < 2147483648 then (pure y : Scan Int) else throw .outOfRange) rest =
      .ok (y, rest) := by
  rw [if_pos ⟨hlow, hhigh⟩]
  rfl

theorem year_padded {n : Nat} (h : n < 10000) (hrest : EndsDigits rest) :
    year (padded 4 n ++ rest) = .ok ((n : Int), rest) := by
  have hlength : (padded 4 n).length = 4 := length_padded (by decide) h
  have hnumber : number (some 4) (padded 4 n ++ rest) = .ok (n, rest) :=
    number_padded (by simp [hlength]) hrest
  have hminus : ∀ tail, padded 4 n ++ rest ≠ '-' :: tail := padded_append_ne (by decide) 4 n
  have hplus : ∀ tail, padded 4 n ++ rest ≠ '+' :: tail := padded_append_ne (by decide) 4 n
  rw [year, bind_ok (blank_padded 4 n), bind_ok get_eq_ok]
  generalize padded 4 n ++ rest = cs at *
  split
  · exact absurd rfl (hminus _)
  · exact absurd rfl (hplus _)
  · rw [bind_ok hnumber, bind_ok (pure_eq_ok _)]
    exact year_in_range (by omega) (by omega)

/-- A year is read with its sign, if it has one. -/
theorem year_yearText {y : Int} (hlow : Calendar.firstYear ≤ y) (hhigh : y ≤ Calendar.lastYear)
    (hrest : EndsDigits rest) : year (yearText y ++ rest) = .ok (y, rest) := by
  simp only [Calendar.firstYear, Calendar.lastYear] at hlow hhigh
  have hnumber : number none (padded 4 y.natAbs ++ rest) = .ok (y.natAbs, rest) :=
    number_padded (by simp) hrest
  unfold yearText
  split_ifs with hshort hnegative
  · rw [year_padded (by omega) hrest, Int.toNat_of_nonneg hshort.1]
  · rw [List.cons_append, year, bind_ok blank_cons, bind_ok get_eq_ok]
    refine (bind_ok set_eq_ok).trans ?_
    rw [bind_ok hnumber, bind_ok (pure_eq_ok _),
      show -(y.natAbs : Int) = y by omega]
    exact year_in_range (by omega) (by omega)
  · rw [List.cons_append, year, bind_ok blank_cons, bind_ok get_eq_ok]
    refine (bind_ok set_eq_ok).trans ?_
    rw [bind_ok hnumber, bind_ok (pure_eq_ok _),
      show (y.natAbs : Int) = y by omega]
    exact year_in_range (by omega) (by omega)

theorem modify_eq_ok (f : List Char → List Char) :
    (modify f : Scan Unit) cs = .ok ((), f cs) := rfl

/-- A fraction of so many digits is read in units of its last digit. -/
theorem fraction_padded {size n : Nat} (hsize : 0 < size) (hnine : size ≤ 9) (h : n < 10 ^ size)
    (hrest : EndsDigits rest) :
    fraction ('.' :: (padded size n ++ rest)) = .ok (n * 10 ^ (9 - size), rest) := by
  have hlength := length_padded hsize h
  have hnumber : number (some 9) (padded size n ++ rest) = .ok (n, rest) :=
    number_padded (by simp [hlength, hnine]) hrest
  rw [fraction, bind_ok get_eq_ok]
  refine (bind_ok set_eq_ok).trans ?_
  rw [bind_ok hnumber, bind_ok get_eq_ok, bind_ok (modify_eq_ok _),
    hrest.dropWhile_eq, List.length_append, hlength, Nat.add_sub_cancel]
  rfl

theorem fraction_fractionText {nano : Nat} (h : nano < 1000000000) :
    fraction (fractionText nano ++ ['Z']) = .ok (nano, ['Z']) := by
  have hz : EndsDigits ['Z'] := endsDigits_cons
  unfold fractionText
  split_ifs with hnone hmilli hmicro
  · rw [hnone]
    rfl
  · rw [List.cons_append, fraction_padded (by decide) (by decide) (by omega) hz,
      show 10 ^ (9 - 3) = 1000000 from rfl, Nat.div_mul_cancel (Nat.dvd_of_mod_eq_zero hmilli)]
  · rw [List.cons_append, fraction_padded (by decide) (by decide) (by omega) hz,
      show 10 ^ (9 - 6) = 1000 from rfl, Nat.div_mul_cancel (Nat.dvd_of_mod_eq_zero hmicro)]
  · rw [List.cons_append, fraction_padded (by decide) (by decide) (by omega) hz]
    simp

theorem zone_z : zone ['Z'] = .ok (0, []) := rfl

theorem separator_t : separator ('T' :: rest) = .ok ((), rest) := rfl

end Scan

theorem endsDigits_fractionText (nano : Nat) : EndsDigits (fractionText nano ++ ['Z']) := by
  unfold fractionText
  split_ifs <;> exact endsDigits_cons

def stamp (t : Instant) : Stamp :=
  ⟨t.date.year, t.date.month, t.date.day, t.minute / 60, t.minute % 60, t.second, t.nano, 0⟩

open Scan in
theorem scan_toText (t : Instant) : Stamp.scan t.toText.toList = .ok (t.stamp, []) := by
  obtain ⟨⟨hfirst, hlast⟩, ⟨hmonth, hmonth'⟩, hday, hday'⟩ := t.date.isDay
  have hdays : t.date.day ≤ 31 := by
    refine Nat.le_trans hday' ?_
    unfold Calendar.daysIn
    split_ifs <;> omega
  have hminute := t.minute_lt
  have hsecond := t.second_le
  simp only [toText, String.toList_ofList, List.append_assoc, List.cons_append]
  rw [Stamp.scan, bind_ok (year_yearText hfirst hlast endsDigits_cons),
    bind_ok blank_cons, bind_ok (literal_cons '-'),
    bind_ok (field_padded hmonth hmonth' (by omega) endsDigits_cons),
    bind_ok blank_cons, bind_ok (literal_cons '-'),
    bind_ok (field_padded hday hdays (by omega) endsDigits_cons), bind_ok separator_t,
    bind_ok (field_padded (by omega) (by omega) (by omega) endsDigits_cons),
    bind_ok blank_cons, bind_ok (literal_cons ':'),
    bind_ok (field_padded (by omega) (by omega) (by omega) endsDigits_cons),
    bind_ok blank_cons, bind_ok (literal_cons ':'),
    bind_ok (field_padded (by omega) hsecond (by omega) (endsDigits_fractionText _)),
    bind_ok (fraction_fractionText t.nano_lt), bind_ok blank_cons, bind_ok zone_z]
  rfl

theorem toInstant_stamp (t : Instant) : t.stamp.toInstant = .ok t := by
  have hdate : Calendar.Day.of? t.date.year t.date.month t.date.day = some t.date :=
    dif_pos t.date.isDay
  have hminute : 60 * (t.minute / 60) + t.minute % 60 = t.minute := Nat.div_add_mod _ _
  have hlocal : ofLocal? t.date t.minute t.second t.nano 0 = some t := by
    have hlt := t.minute_lt
    have hnot : ¬ (t.minute : Int) < 0 := by omega
    have hday : (t.minute : Int) < 1440 := by omega
    have hmod : ((t.minute : Int) % 1440).toNat = t.minute := by omega
    simp only [ofLocal?, Int.sub_zero, hnot, hday, hmod, ↓reduceIte, Option.bind_some]
    exact dif_pos ⟨hlt, t.second_le, t.nano_lt⟩
  simp only [Stamp.toInstant, stamp, hdate, hminute, hlocal]
  rfl

/-- A moment that is written is read again, in whatever year it lies. -/
theorem ofText_toText (t : Instant) : ofText t.toText = .ok t := by
  rw [ofText, scan_toText]
  exact t.toInstant_stamp

end Allegiance.Instant
