import Allegiance.Json.Value
import Allegiance.Proofs.Grammar

namespace Allegiance.Json

open Document (Node)

def decimal (n : Nat) : Bytes := bytes (Nat.toDigits 10 n)

theorem decimal_of_lt {n : Nat} (h : n < 10) : decimal n = [byte n.digitChar] := by
  simp [decimal, bytes, Nat.toDigits_of_lt_base h]

theorem decimal_of_le {n : Nat} (h : 10 ≤ n) :
    decimal n = decimal (n / 10) ++ [byte (n % 10).digitChar] := by
  simp [decimal, bytes, Nat.toDigits_of_base_le (by decide : 1 < 10) h]

theorem byte_digitChar :
    ∀ d < 10, isDigit (byte d.digitChar) = true ∧ digitValue (byte d.digitChar) = d ∧
      (byte d.digitChar = 48 → d = 0) := by
  decide

theorem spelled_append (n : Nat) (ds ds' : Bytes) :
    spelled n (ds ++ ds') = spelled (spelled n ds) ds' := List.foldl_append

theorem spelled_decimal (n : Nat) : spelled 0 (decimal n) = n := by
  induction n using Nat.strongRecOn with
  | ind n ih =>
    rcases Nat.lt_or_ge n 10 with h | h
    · simp [decimal_of_lt h, spelled, (byte_digitChar n h).2.1]
    · have hlast := (byte_digitChar (n % 10) (Nat.mod_lt n (by decide))).2.1
      rw [decimal_of_le h, spelled_append, ih (n / 10) (by omega)]
      simp only [spelled, List.foldl_cons, List.foldl_nil, hlast]
      omega

theorem isDigit_of_mem_decimal {n : Nat} {b : UInt8} (h : b ∈ decimal n) : isDigit b = true := by
  induction n using Nat.strongRecOn with
  | ind n ih =>
    rcases Nat.lt_or_ge n 10 with hn | hn
    · rw [decimal_of_lt hn, List.mem_singleton] at h
      exact h ▸ (byte_digitChar n hn).1
    · rw [decimal_of_le hn, List.mem_append, List.mem_singleton] at h
      rcases h with h | rfl
      · exact ih (n / 10) (by omega) h
      · exact (byte_digitChar _ (Nat.mod_lt n (by decide))).1

theorem decimal_ne_nil (n : Nat) : decimal n ≠ [] := by
  simp [decimal, bytes, Nat.toDigits_ne_nil]

/-- Only zero starts with a zero. -/
theorem head?_decimal {n : Nat} (h : n ≠ 0) : (decimal n).head? ≠ some 48 := by
  induction n using Nat.strongRecOn with
  | ind n ih =>
    rcases Nat.lt_or_ge n 10 with hn | hn
    · rw [decimal_of_lt hn, List.head?_cons]
      intro h48
      exact h ((byte_digitChar n hn).2.2 (Option.some.inj h48))
    · have := ih (n / 10) (by omega) (by omega)
      rw [decimal_of_le hn]
      cases hd : decimal (n / 10) with
      | nil => exact absurd hd (decimal_ne_nil _)
      | cons d ds => simpa [hd] using this

theorem le_spelled (n : Nat) (ds : Bytes) : n ≤ spelled n ds := by
  induction ds generalizing n with
  | nil => exact Nat.le_refl n
  | cons d ds ih =>
    have := ih (10 * n + digitValue d)
    simp only [spelled, List.foldl_cons] at this ⊢
    omega

/-- Digits are all taken up if the number they spell has room. -/
theorem accumulate_eq {n : Nat} {ds : Bytes} (h : spelled n ds < UInt64.size) :
    accumulate n ds = (spelled n ds, []) := by
  induction ds generalizing n with
  | nil => rfl
  | cons d ds ih =>
    have hstep : spelled n (d :: ds) = spelled (10 * n + digitValue d) ds := rfl
    rw [hstep] at h ⊢
    have := le_spelled (10 * n + digitValue d) ds
    rw [accumulate]
    simp only [Nat.lt_of_le_of_lt this h, ↓reduceIte]
    exact ih h

def Literal.ofNat (n : Nat) : Literal := ⟨false, decimal n, none, none⟩

theorem Literal.spells_decimal (n : Nat) : (ofNat n).Spells (decimal n) where
  whole := ⟨decimal_ne_nil n, fun _ hd => isDigit_of_mem_decimal hd⟩
  zero := by
    intro hhead
    rcases Nat.eq_zero_or_pos n with rfl | hn
    · rfl
    · exact absurd hhead (head?_decimal (by omega))
  fraction := by simp [ofNat]
  bytes := ⟨[], .absent, by simp [ofNat, fractionBytes]⟩

theorem Literal.node_ofNat {n : Nat} (h : n < UInt64.size) : (ofNat n).node = .integer n := by
  have hspelled : spelled 0 (decimal n) < UInt64.size := by rwa [spelled_decimal]
  simp [ofNat, node, accumulate_eq hspelled, spelled_decimal]

end Allegiance.Json
