import Allegiance.Http.Percent
import Allegiance.Proofs.Characters

namespace Allegiance

theorem Hex.value?_upperDigit : ∀ n < 16, value? (upperDigit (UInt8.ofNat n)) = some n := by
  decide

namespace Percent

/-- A byte that stands in an address as it is, or the percent sign. -/
def IsWritten (b : UInt8) : Prop := isUnreserved b = true ∨ b = 37

instance (b : UInt8) : Decidable (IsWritten b) := inferInstanceAs (Decidable (_ ∨ _))

theorem isWritten_upperDigit : ∀ n < 16, IsWritten (Hex.upperDigit (UInt8.ofNat n)) := by
  decide

def spell (bs : Bytes) : String := String.ofList ((encode bs).map (fun b => Char.ofNat b.toNat))

theorem decode_cons_of_ne {b : UInt8} (h : b ≠ 37) (rest : Bytes) :
    decode (b :: rest) = b :: decode rest := by
  rw [decode]
  intro _ _ _ hb
  exact absurd hb h

theorem digits_eq (b : UInt8) :
    b / 16 = UInt8.ofNat (b.toNat / 16) ∧ b % 16 = UInt8.ofNat (b.toNat % 16) := by
  have hb := b.toNat_lt
  constructor
  · apply UInt8.toNat_inj.mp
    rw [UInt8.toNat_div, UInt8.toNat_ofNat_of_lt' (by change b.toNat / 16 < 256; omega)]
    rfl
  · apply UInt8.toNat_inj.mp
    rw [UInt8.toNat_mod, UInt8.toNat_ofNat_of_lt' (by change b.toNat % 16 < 256; omega)]
    rfl

theorem decode_encodeByte (b : UInt8) (rest : Bytes) :
    decode (encodeByte b ++ rest) = b :: decode rest := by
  rw [encodeByte]
  split
  · rename_i hunreserved
    apply decode_cons_of_ne
    rintro rfl
    cases hunreserved
  · obtain ⟨hhigh, hlow⟩ := digits_eq b
    have hb := b.toNat_lt
    rw [hhigh, hlow, List.cons_append, List.cons_append, List.cons_append, List.nil_append, decode,
      Hex.value?_upperDigit _ (by omega), Hex.value?_upperDigit _ (by omega)]
    have hsum : 16 * (b.toNat / 16) + b.toNat % 16 = b.toNat := by omega
    simp [hsum]

theorem decode_encode (bs : Bytes) : decode (encode bs) = bs := by
  induction bs with
  | nil => rfl
  | cons b bs ih =>
    rw [encode, List.flatMap_cons, decode_encodeByte]
    exact congrArg (b :: ·) ih

theorem isWritten_of_mem_encode {bs : Bytes} {c : UInt8} (h : c ∈ encode bs) : IsWritten c := by
  obtain ⟨b, -, hc⟩ := List.mem_flatMap.mp h
  rw [encodeByte] at hc
  split at hc
  · rename_i hunreserved
    exact .inl (List.mem_singleton.mp hc ▸ hunreserved)
  · obtain ⟨hhigh, hlow⟩ := digits_eq b
    have hb := b.toNat_lt
    simp only [hhigh, hlow, List.mem_cons, List.not_mem_nil, or_false] at hc
    rcases hc with rfl | rfl | rfl
    · exact .inr rfl
    · exact isWritten_upperDigit _ (by omega)
    · exact isWritten_upperDigit _ (by omega)

/-- Nothing of what is written is a slash, a question mark or a number sign. -/
theorem IsWritten.bounds {b : UInt8} (h : IsWritten b) :
    b.toNat < 128 ∧ b.toNat ≠ 47 ∧ b.toNat ≠ 63 ∧ b.toNat ≠ 35 := by
  have hnat : ∀ n : UInt8, b = n ↔ b.toNat = n.toNat := fun n => UInt8.toNat_inj.symm
  simp only [IsWritten, isUnreserved, Bool.or_eq_true, Bool.and_eq_true, decide_eq_true_eq,
    UInt8.le_iff_toNat_le, hnat, UInt8.toNat_ofNat] at h
  omega

theorem toNat_character (b : UInt8) : (Char.ofNat b.toNat).toNat = b.toNat := by
  have hb := b.toNat_lt
  have hvalid : b.toNat.isValidChar := .inl (by omega)
  rw [Char.ofNat, dif_pos hvalid]
  rfl

theorem exists_of_mem_spell {bs : Bytes} {c : Char} (h : c ∈ (spell bs).toList) :
    ∃ b, IsWritten b ∧ c.toNat = b.toNat := by
  rw [spell, String.toList_ofList] at h
  obtain ⟨b, hb, rfl⟩ := List.mem_map.mp h
  exact ⟨b, isWritten_of_mem_encode hb, toNat_character b⟩

/-- None of the marks that part an address is left in what is encoded. -/
theorem not_mark_of_mem_spell {bs : Bytes} {c : Char} (h : c ∈ (spell bs).toList) :
    c ≠ '/' ∧ c ≠ '?' ∧ c ≠ '#' := by
  obtain ⟨b, hwritten, hc⟩ := exists_of_mem_spell h
  obtain ⟨-, hslash, hquestion, hnumber⟩ := hwritten.bounds
  rw [← hc] at hslash hquestion hnumber
  refine ⟨?_, ?_, ?_⟩
  · rintro rfl
    exact hslash rfl
  · rintro rfl
    exact hquestion rfl
  · rintro rfl
    exact hnumber rfl

/-- The bytes of the text are the bytes that were written. -/
theorem encode_spell (bs : Bytes) : Utf8.encode (spell bs) = encode bs := by
  have hsmall : ∀ c ∈ (encode bs).map (fun b => Char.ofNat b.toNat), c.toNat < 128 := by
    intro c hc
    obtain ⟨b, hwritten, hb⟩ := exists_of_mem_spell (by rwa [spell, String.toList_ofList])
    rw [hb]
    exact hwritten.bounds.1
  rw [spell, Utf8.encode_ofList hsmall, List.map_map]
  apply List.map_id''
  intro b
  simp [toNat_character]

theorem spell_ne_empty {bs : Bytes} (h : bs ≠ []) : spell bs ≠ "" := by
  intro hempty
  have hwritten := encode_spell bs
  rw [hempty] at hwritten
  have hdecoded := decode_encode bs
  rw [← hwritten] at hdecoded
  exact h hdecoded.symm

end Percent

end Allegiance
