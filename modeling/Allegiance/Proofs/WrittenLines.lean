import Allegiance.Proofs.Layouts
import Allegiance.Storage.Lines

namespace Allegiance

open Document (Reader)
open Json (Value byte decimal)

namespace Json

theorem le_of_mem_decimal {n : Nat} {c : UInt8} (h : c ∈ decimal n) : 32 ≤ c := by
  have hdigit := isDigit_of_mem_decimal h
  simp only [isDigit, Bool.and_eq_true, decide_eq_true_eq] at hdigit
  exact UInt8.le_trans (by decide) hdigit.1

namespace Value

mutual

/-- A compact value has no byte below a blank in it, and so no line feed. -/
theorem le_of_mem_compact : ∀ (v : Value), v.Whole → ∀ c ∈ v.compact, 32 ≤ c
  | integer i, h, c, hc => by
    rw [compact, integerText_eq h] at hc
    exact le_of_mem_decimal hc
  | real x, h, c, hc => absurd h id
  | text s, h, c, hc => le_of_mem_writeText hc
  | list [], h, c, hc => by
    have : ∀ c ∈ (list []).compact, 32 ≤ c := by decide +kernel
    exact this c hc
  | list (item :: items), h, c, hc => by
    simp only [compact, compactItems_cons, List.mem_cons, List.mem_append, List.not_mem_nil,
      or_false] at hc
    rcases hc with rfl | (hc | hc) | rfl
    · decide
    · exact le_of_mem_compact item h.1 c hc
    · exact le_of_mem_compactMoreItems items h.2 c hc
    · decide
  | object [], h, c, hc => by
    have : ∀ c ∈ (object []).compact, 32 ≤ c := by decide +kernel
    exact this c hc
  | object ((name, value) :: members), h, c, hc => by
    simp only [compact, compactMembers_cons, List.mem_cons, List.mem_append, List.not_mem_nil,
      or_false] at hc
    rcases hc with rfl | (hc | rfl | hc | hc) | rfl
    · decide
    · exact le_of_mem_writeText hc
    · decide
    · exact le_of_mem_compact value h.1 c hc
    · exact le_of_mem_compactMoreMembers members h.2 c hc
    · decide

theorem le_of_mem_compactMoreItems : ∀ (items : List Value), WholeItems items →
    ∀ c ∈ compactMoreItems items, 32 ≤ c
  | [], h, c, hc => absurd hc List.not_mem_nil
  | item :: items, h, c, hc => by
    simp only [compactMoreItems, List.flatMap_cons, List.mem_cons, List.mem_append] at hc
    rcases hc with (rfl | hc) | hc
    · decide
    · exact le_of_mem_compact item h.1 c hc
    · exact le_of_mem_compactMoreItems items h.2 c hc

theorem le_of_mem_compactMoreMembers : ∀ (members : List (String × Value)), WholeMembers members →
    ∀ c ∈ compactMoreMembers members, 32 ≤ c
  | [], h, c, hc => absurd hc List.not_mem_nil
  | (name, value) :: members, h, c, hc => by
    simp only [compactMoreMembers, List.flatMap_cons, List.mem_cons, List.mem_append] at hc
    rcases hc with (rfl | hc | rfl | hc) | hc
    · decide
    · exact le_of_mem_writeText hc
    · decide
    · exact le_of_mem_compact value h.1 c hc
    · exact le_of_mem_compactMoreMembers members h.2 c hc

end

end Value

end Json

namespace Lines

theorem lineFeed_not_mem_compact {v : Value} (h : v.Whole) : lineFeed ∉ v.compact := by
  intro hmem
  exact absurd (Value.le_of_mem_compact v h _ hmem) (by decide)

theorem compact_not_blank {v : Value} (h : v.Whole) : v.compact.all isBlankByte = false := by
  cases v with
  | integer i =>
    rw [Value.compact, Value.integerText_eq h]
    cases hd : decimal i.toNat with
    | nil => exact absurd hd (Json.decimal_ne_nil _)
    | cons c ds =>
      have hc : Json.isDigit c = true :=
        Json.isDigit_of_mem_decimal (n := i.toNat) (by simp [hd])
      have hblank : isBlankByte c = false := by
        cases hb : isBlankByte c with
        | false => rfl
        | true =>
          simp only [isBlankByte, Bool.or_eq_true, decide_eq_true_eq] at hb
          rcases hb with (((rfl | rfl) | rfl) | rfl) | rfl <;> exact absurd hc (by decide)
      simp [hblank]
  | real x => exact absurd h id
  | text s => rfl
  | list items => rw [Value.compact]; rfl
  | object members => rw [Value.compact]; rfl

theorem pieces_append {line : Bytes} (h : lineFeed ∉ line) (rest : Bytes) :
    split.pieces (line ++ lineFeed :: rest) = line :: split.pieces rest := by
  induction line with
  | nil => simp [split.pieces]
  | cons c line ih =>
    have hc : c ≠ lineFeed := fun he => h (by simp [he])
    rw [List.cons_append, split.pieces, ih (fun hmem => h (by simp [hmem]))]
    simp [hc]

theorem pieces_of_not_mem {line : Bytes} (h : lineFeed ∉ line) : split.pieces line = [line] := by
  induction line with
  | nil => rfl
  | cons c line ih =>
    have hc : c ≠ lineFeed := fun he => h (by simp [he])
    rw [split.pieces, ih (fun hmem => h (by simp [hmem]))]
    simp [hc]

/-- A content cut at its line feeds: the lines that they end, and what follows the last of them. -/
structure Cut (content : Bytes) (ended : List Bytes) (last : Bytes) : Prop where
  content_eq : content = ended.flatMap (fun line => line ++ [lineFeed]) ++ last
  ended : ∀ line ∈ ended, lineFeed ∉ line
  last : lineFeed ∉ last

namespace Cut

variable {content : Bytes} {ended : List Bytes} {last : Bytes}

theorem pieces_eq (h : Cut content ended last) : split.pieces content = ended ++ [last] := by
  obtain ⟨rfl, hended, hlast⟩ := h
  -- Each line that is ended is cut off; what follows the last one has nothing to be cut at.
  induction ended with
  | nil => exact pieces_of_not_mem hlast
  | cons line ended ih =>
    have hline : lineFeed ∉ line := hended line (by simp)
    rw [List.flatMap_cons, List.append_assoc, List.append_assoc, List.singleton_append,
      pieces_append hline, ih (fun l hl => hended l (by simp [hl]))]
    rfl

/-- What follows the last line feed is a line only if something is there. -/
theorem split_eq (h : Cut content ended last) :
    split content = ended ++ if last = [] then [] else [last] := by
  rw [split, h.pieces_eq]
  by_cases hlast : last = []
  · simp [hlast]
  · simp [hlast]

end Cut

theorem exists_cut (content : Bytes) : ∃ ended last, Cut content ended last := by
  induction content with
  | nil => exact ⟨[], [], rfl, by simp, by simp⟩
  | cons b content ih =>
    obtain ⟨ended, last, rfl, hended, hlast⟩ := ih
    by_cases hb : b = lineFeed
    · refine ⟨[] :: ended, last, by simp [hb], ?_, hlast⟩
      intro line hline
      rcases List.mem_cons.mp hline with rfl | hline
      · exact List.not_mem_nil
      · exact hended line hline
    · -- The byte belongs to the first line, which may be the one that is not ended.
      cases ended with
      | nil =>
        refine ⟨[], b :: last, rfl, by simp, ?_⟩
        simp [hlast, Ne.symm hb]
      | cons line ended =>
        refine ⟨(b :: line) :: ended, last, by simp, ?_, hlast⟩
        intro l hl
        rcases List.mem_cons.mp hl with rfl | hl
        · simp [hended line, Ne.symm hb]
        · exact hended l (by simp [hl])

/-- Lines that are ended by line feeds are told apart again. -/
theorem split_flatMap {lines : List Bytes} (h : ∀ line ∈ lines, lineFeed ∉ line) :
    split (lines.flatMap (fun line => line ++ [lineFeed])) = lines := by
  have hcut : Cut (lines.flatMap (fun line => line ++ [lineFeed])) lines [] :=
    ⟨by simp, h, by simp⟩
  rw [hcut.split_eq]
  simp

theorem readFrom_compact {α β : Type} {reader : Reader α} {write : β → Value} {back : β → α}
    {items : List β}
    (h : ∀ b ∈ items, (write b).Whole ∧ reader (write b).node = .ok (back b)) (number : Nat) :
    readFrom reader number (items.map (fun b => (write b).compact)) = ⟨items.map back, []⟩ := by
  induction items generalizing number with
  | nil => rfl
  | cons b items ih =>
    obtain ⟨hwhole, hread⟩ := h b (by simp)
    have hline : readLine reader number (write b).compact = ⟨[back b], []⟩ := by
      simp [readLine, compact_not_blank hwhole,
        Json.read_of_document (Json.document_compact hwhole) hread]
    rw [List.map_cons, readFrom, hline, ih (fun c hc => h c (by simp [hc]))]
    rfl

theorem split_write {α : Type} {write : α → Value} {items : List α}
    (h : ∀ x ∈ items, (write x).Whole) :
    split (Lines.write (items.map write)) = items.map (fun x => (write x).compact) := by
  have hlines : Lines.write (items.map write) =
      (items.map (fun x => (write x).compact)).flatMap (fun line => line ++ [lineFeed]) := by
    simp [Lines.write, List.flatMap_map]
  have hnone : ∀ line ∈ items.map (fun x => (write x).compact), lineFeed ∉ line := by
    intro line hline
    obtain ⟨x, hx, rfl⟩ := List.mem_map.mp hline
    exact lineFeed_not_mem_compact (h x hx)
  rw [hlines, split_flatMap hnone]

/-- Documents written one a line are read one a line: none is lost, split, merged or skipped. -/
theorem read_write {α β : Type} {reader : Reader α} {write : β → Value} {back : β → α}
    {items : List β}
    (h : ∀ b ∈ items, (write b).Whole ∧ reader (write b).node = .ok (back b)) :
    read reader (Lines.write (items.map write)) = ⟨items.map back, []⟩ := by
  rw [read, split_write (fun b hb => (h b hb).1), readFrom_compact h]

end Lines

end Allegiance
