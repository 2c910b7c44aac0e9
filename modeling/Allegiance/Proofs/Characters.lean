import Allegiance.Text.Utf8

namespace Allegiance.Utf8

theorem encode_eq_flatMap (s : String) : encode s = s.toList.flatMap String.utf8EncodeChar := by
  simp [encode, ← String.utf8Encode_toList, List.utf8Encode]

theorem utf8EncodeChar_of_lt {c : Char} (h : c.toNat < 128) :
    String.utf8EncodeChar c = [UInt8.ofNat c.toNat] := by
  have hle : c.toNat ≤ 127 := by omega
  simp [String.utf8EncodeChar, hle]

theorem le_of_mem_utf8EncodeChar {c : Char} (h : 128 ≤ c.toNat) {b : UInt8}
    (hb : b ∈ String.utf8EncodeChar c) : 128 ≤ b := by
  have hgt : ¬ c.val.toNat ≤ 127 := Nat.not_le.mpr h
  have hlow : ∀ n k : Nat, 128 ≤ k → n + k < 256 → (128 : UInt8) ≤ UInt8.ofNat (n + k) := by
    intro n k hk hn
    rw [UInt8.le_iff_toNat_le, UInt8.toNat_ofNat_of_lt' hn]
    change 128 ≤ n + k
    omega
  simp only [String.utf8EncodeChar, hgt, ↓reduceIte] at hb
  split at hb
  · simp only [List.mem_cons, List.not_mem_nil, or_false] at hb
    rcases hb with rfl | rfl <;> exact hlow _ _ (by omega) (by omega)
  · split at hb
    · simp only [List.mem_cons, List.not_mem_nil, or_false] at hb
      rcases hb with rfl | rfl | rfl <;> exact hlow _ _ (by omega) (by omega)
    · simp only [List.mem_cons, List.not_mem_nil, or_false] at hb
      rcases hb with rfl | rfl | rfl | rfl <;> exact hlow _ _ (by omega) (by omega)

/-- A character below 128 is one byte, the same number; all bytes of any other character are 128 or
more. -/
theorem all_encode_iff {p : UInt8 → Bool} (hp : ∀ b : UInt8, 128 ≤ b → p b = true) (s : String) :
    (encode s).all p = true ↔
      ∀ c ∈ s.toList, c.toNat < 128 → p (UInt8.ofNat c.toNat) = true := by
  rw [encode_eq_flatMap, List.all_flatMap, List.all_eq_true]
  refine forall₂_congr (fun c _ => ?_)
  by_cases hc : c.toNat < 128
  · simp [utf8EncodeChar_of_lt hc, hc]
  · simp only [hc, false_implies, iff_true, List.all_eq_true]
    exact fun b hb => hp b (le_of_mem_utf8EncodeChar (Nat.not_lt.mp hc) hb)

theorem encode_ofList {cs : List Char} (h : ∀ c ∈ cs, c.toNat < 128) :
    encode (String.ofList cs) = cs.map (fun c => UInt8.ofNat c.toNat) := by
  rw [encode_eq_flatMap, String.toList_ofList]
  induction cs with
  | nil => rfl
  | cons c cs ih =>
    rw [List.flatMap_cons, utf8EncodeChar_of_lt (h c List.mem_cons_self),
      ih (fun d hd => h d (List.mem_cons_of_mem c hd))]
    rfl

end Allegiance.Utf8
