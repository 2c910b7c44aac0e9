import Mathlib.Tactic.SplitIfs
import Allegiance.Proofs.Grammar

namespace Allegiance.Json

open Document (Break Node)

/-- The bytes that have a letter of their own after a backslash. -/
def shortEscapes : List (UInt8 × UInt8) :=
  [(34, 34), (92, 92), (8, byte 'b'), (9, byte 't'), (10, byte 'n'), (12, byte 'f'), (13, byte 'r')]

/-- A byte is written as itself, by a letter after a backslash, or by its number. -/
theorem escaped_cases (b : UInt8) :
    (IsPlain b ∧ escaped b = [b]) ∨
    (∃ e, (b, e) ∈ shortEscapes ∧ escaped b = [92, e]) ∨
    (b < 32 ∧ escaped b = [92, byte 'u', 48, 48, Hex.digit (b / 16), Hex.digit (b % 16)]) := by
  unfold escaped
  split_ifs with h34 h92 h8 h9 h10 h12 h13 h32
  · exact .inr (.inl ⟨34, by simp [shortEscapes, h34], rfl⟩)
  · exact .inr (.inl ⟨92, by simp [shortEscapes, h92], rfl⟩)
  · exact .inr (.inl ⟨_, by simp [shortEscapes, h8], rfl⟩)
  · exact .inr (.inl ⟨_, by simp [shortEscapes, h9], rfl⟩)
  · exact .inr (.inl ⟨_, by simp [shortEscapes, h10], rfl⟩)
  · exact .inr (.inl ⟨_, by simp [shortEscapes, h12], rfl⟩)
  · exact .inr (.inl ⟨_, by simp [shortEscapes, h13], rfl⟩)
  · exact .inr (.inr ⟨h32, rfl⟩)
  · exact .inl ⟨⟨h34, h92, UInt8.not_lt.mp h32⟩, rfl⟩

theorem mem_shortEscapes {p : UInt8 × UInt8} (h : p ∈ shortEscapes) :
    (p.2, p.1) ∈ escapes ∧ 32 ≤ p.2 := by
  simp only [shortEscapes, List.mem_cons, List.not_mem_nil, or_false] at h
  rcases h with rfl | rfl | rfl | rfl | rfl | rfl | rfl <;> decide

theorem hexNumber?_control :
    ∀ n < 32, hexNumber? 48 48 (Hex.digit (UInt8.ofNat n / 16)) (Hex.digit (UInt8.ofNat n % 16)) =
      some n := by
  decide +kernel

theorem charBytes_control : ∀ n < 32, charBytes n = [UInt8.ofNat n] := by
  decide +kernel

theorem SpellsContent.escaped {content spelling : Bytes} (h : SpellsContent content spelling)
    (b : UInt8) : SpellsContent (b :: content) (Json.escaped b ++ spelling) := by
  rcases escaped_cases b with ⟨hb, he⟩ | ⟨e, hmem, he⟩ | ⟨hlow, he⟩
  · rw [he]
    exact .plain hb h
  · rw [he]
    exact .letter (mem_shortEscapes hmem).1 h
  · have hn : b.toNat < 32 := hlow
    have hhex := hexNumber?_control b.toNat hn
    have hchar := charBytes_control b.toNat hn
    rw [UInt8.ofNat_toNat] at hhex hchar
    have := SpellsContent.code hhex (.inl (by omega)) h
    rw [hchar] at this
    rw [he]
    exact this

theorem spellsContent_flatMap_escaped (content : Bytes) :
    SpellsContent content (content.flatMap escaped) := by
  induction content with
  | nil => exact .nil
  | cons b content ih => exact ih.escaped b

/-- A text is written as the grammar spells texts, whatever is in it. -/
theorem spellsText_writeText (s : String) : SpellsText s (writeText s) :=
  ⟨_, spellsContent_flatMap_escaped (Utf8.encode s), rfl⟩

/-- No byte below a blank is left in what is written. -/
theorem le_of_mem_escaped {b c : UInt8} (h : c ∈ escaped b) : 32 ≤ c := by
  rcases escaped_cases b with ⟨⟨_, _, h32⟩, he⟩ | ⟨e, hmem, he⟩ | ⟨hlow, he⟩
  · rw [he, List.mem_singleton] at h
    exact h ▸ h32
  · have h32 := (mem_shortEscapes hmem).2
    rw [he] at h
    rcases List.mem_cons.mp h with rfl | h
    · decide
    · rw [List.mem_singleton.mp h]
      exact h32
  · have hdigits : ∀ n < 32, ∀ c ∈ escaped (UInt8.ofNat n), 32 ≤ c := by decide +kernel
    have := hdigits b.toNat hlow
    rw [UInt8.ofNat_toNat] at this
    exact this c h

theorem le_of_mem_writeText {s : String} {c : UInt8} (h : c ∈ writeText s) : 32 ≤ c := by
  simp only [writeText, List.cons_append, List.mem_cons, List.mem_append, List.mem_flatMap,
    List.not_mem_nil, or_false] at h
  rcases h with rfl | ⟨b, _, h⟩ | rfl
  · decide
  · exact le_of_mem_escaped h
  · decide

end Allegiance.Json
