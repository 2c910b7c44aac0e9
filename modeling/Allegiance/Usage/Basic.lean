import Std.Data.TreeMap

namespace Allegiance

/-- Kills per weapon for one player in one match. A weapon keeps the place of its first entry and
the count of its last; `positions` finds the place of a weapon. -/
structure Usage where
  entries : Array (String × UInt32)
  positions : Std.TreeMap String Nat
  located : ∀ (w : String) (i : Nat),
    positions[w]? = some i ↔ ∃ h : i < entries.size, entries[i].1 = w

namespace Usage

def empty : Usage where
  entries := #[]
  positions := ∅
  located := by simp

instance : Inhabited Usage := ⟨empty⟩

def toList (u : Usage) : List (String × UInt32) := u.entries.toList

def size (u : Usage) : Nat := u.entries.size

def isEmpty (u : Usage) : Bool := u.entries.isEmpty

theorem located_lt {u : Usage} {w : String} {i : Nat} (h : u.positions[w]? = some i) :
    i < u.entries.size :=
  ((u.located w i).mp h).1

def get? (u : Usage) (w : String) : Option UInt32 :=
  match h : u.positions[w]? with
  | some i =>
    have : i < u.entries.size := located_lt h
    some u.entries[i].2
  | none => none

theorem unlisted {u : Usage} {w : String} (h : u.positions[w]? = none) {i : Nat}
    (hi : i < u.entries.size) : u.entries[i].1 ≠ w := by
  intro hw
  have := (u.located w i).mpr ⟨hi, hw⟩
  simp [h] at this

theorem located_set {u : Usage} {w : String} {i : Nat} (h : u.positions[w]? = some i)
    (count : UInt32) (v : String) (j : Nat) :
    u.positions[v]? = some j ↔
      ∃ hj : j < (u.entries.set i (w, count) (located_lt h)).size,
        ((u.entries.set i (w, count) (located_lt h))[j]).1 = v := by
  obtain ⟨hi, hw⟩ := (u.located w i).mp h
  rw [u.located v j]
  simp only [Array.size_set, Array.getElem_set]
  constructor
  · rintro ⟨hj, hv⟩
    refine ⟨hj, ?_⟩
    split
    · rename_i he
      subst he
      exact hw.symm.trans hv
    · exact hv
  · rintro ⟨hj, hv⟩
    refine ⟨hj, ?_⟩
    split at hv
    · rename_i he
      subst he
      exact hw.trans hv
    · exact hv

theorem located_push {u : Usage} {w : String} (h : u.positions[w]? = none)
    (count : UInt32) (v : String) (j : Nat) :
    (u.positions.insert w u.entries.size)[v]? = some j ↔
      ∃ hj : j < (u.entries.push (w, count)).size, (u.entries.push (w, count))[j].1 = v := by
  rw [Std.TreeMap.getElem?_insert]
  -- The new name has the new place, and every other name the place it had.
  by_cases hv : compare w v = .eq
  · have he : w = v := Std.LawfulEqCmp.eq_of_compare hv
    subst he
    simp only [hv, ↓reduceIte, Option.some.injEq, Array.size_push, Array.getElem_push]
    constructor
    · rintro rfl
      exact ⟨by omega, by simp⟩
    · rintro ⟨hj, hn⟩
      split at hn
      · rename_i hlt
        exact absurd hn (unlisted h hlt)
      · omega
  · rw [if_neg hv, u.located v j]
    have hne : w ≠ v := fun e => hv (by subst e; exact Std.ReflCmp.compare_self)
    simp only [Array.size_push, Array.getElem_push]
    constructor
    · rintro ⟨hj, hn⟩
      exact ⟨by omega, by simpa [hj] using hn⟩
    · rintro ⟨hj, hn⟩
      split at hn
      · rename_i hlt
        exact ⟨hlt, hn⟩
      · exact absurd hn hne

def insert (u : Usage) (w : String) (count : UInt32) : Usage :=
  match h : u.positions[w]? with
  | some i =>
    { entries := u.entries.set i (w, count) (located_lt h)
      positions := u.positions
      located := located_set h count }
  | none =>
    let place := u.entries.size
    { entries := u.entries.push (w, count)
      positions := u.positions.insert w place
      located := located_push h count }

def ofList (pairs : List (String × UInt32)) : Usage :=
  pairs.foldl (fun u p => u.insert p.1 p.2) empty

def total (u : Usage) : UInt64 := u.entries.foldl (fun sum e => sum + e.2.toUInt64) 0

/-- Same entries in the same order, at the same places. -/
instance : BEq Usage := ⟨fun u v => u.entries == v.entries && u.positions.toList == v.positions.toList⟩

end Usage

end Allegiance
