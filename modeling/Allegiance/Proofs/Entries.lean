import Mathlib.Data.List.Induction
import Allegiance.Usage.Basic

namespace Allegiance.Usage

theorem place_unique (u : Usage) {i j : Nat} (hi : i < u.entries.size) (hj : j < u.entries.size)
    (h : u.entries[i].1 = u.entries[j].1) : i = j := by
  have hfirst := (u.located u.entries[i].1 i).mpr ⟨hi, rfl⟩
  have hsecond := (u.located u.entries[i].1 j).mpr ⟨hj, h.symm⟩
  rw [hfirst] at hsecond
  exact Option.some.inj hsecond

theorem nodup_names (u : Usage) : (u.toList.map Prod.fst).Nodup := by
  rw [List.Nodup, List.pairwise_iff_getElem]
  intro i j hi hj hij heq
  simp only [List.length_map, toList, Array.length_toList] at hi hj
  simp only [List.getElem_map, toList, Array.getElem_toList] at heq
  have := u.place_unique hi hj heq
  omega

section Insert

variable {u : Usage} {w : String} {old : UInt32} {before after : List (String × UInt32)}

theorem entry_eq (h : u.toList = before ++ (w, old) :: after) :
    ∃ hlt : before.length < u.entries.size, u.entries[before.length] = (w, old) := by
  apply Array.getElem?_eq_some_iff.mp
  rw [← Array.getElem?_toList]
  change u.toList[before.length]? = some (w, old)
  simp [h]

theorem position_eq (h : u.toList = before ++ (w, old) :: after) :
    u.positions[w]? = some before.length := by
  obtain ⟨hlt, hentry⟩ := entry_eq h
  exact (u.located w before.length).mpr ⟨hlt, congrArg Prod.fst hentry⟩

theorem get?_eq (h : u.toList = before ++ (w, old) :: after) : u.get? w = some old := by
  obtain ⟨_, hentry⟩ := entry_eq h
  unfold get?
  split
  · rename_i i hi
    rw [position_eq h, Option.some.injEq] at hi
    subst hi
    exact congrArg (fun e => some e.2) hentry
  · rename_i hnone
    rw [position_eq h] at hnone
    cases hnone

/-- A weapon that is listed keeps its place. -/
theorem toList_insert_of_split (h : u.toList = before ++ (w, old) :: after) (count : UInt32) :
    (u.insert w count).toList = before ++ (w, count) :: after := by
  unfold insert
  split
  · rename_i i hi
    rw [position_eq h, Option.some.injEq] at hi
    subst hi
    simp only [toList, Array.toList_set]
    change u.toList.set before.length (w, count) = before ++ (w, count) :: after
    simp [h]
  · rename_i hnone
    rw [position_eq h] at hnone
    cases hnone

/-- A weapon that is not listed comes last. -/
theorem toList_insert_of_not_mem (h : w ∉ u.toList.map Prod.fst) (count : UInt32) :
    (u.insert w count).toList = u.toList ++ [(w, count)] := by
  unfold insert
  split
  · rename_i i hi
    obtain ⟨hlt, hw⟩ := (u.located w i).mp hi
    refine absurd ?_ h
    exact List.mem_map.mpr ⟨u.entries[i], Array.getElem_mem_toList hlt, hw⟩
  · simp [toList]

theorem exists_split (h : w ∈ u.toList.map Prod.fst) :
    ∃ before old after, u.toList = before ++ (w, old) :: after := by
  obtain ⟨⟨v, old⟩, hmem, rfl⟩ := List.mem_map.mp h
  obtain ⟨before, after, hsplit⟩ := List.append_of_mem hmem
  exact ⟨before, old, after, hsplit⟩

theorem mem_toList_iff : (w, old) ∈ u.toList ↔ u.get? w = some old := by
  constructor
  · intro h
    obtain ⟨before, after, hsplit⟩ := List.append_of_mem h
    exact get?_eq hsplit
  · intro h
    by_cases hw : w ∈ u.toList.map Prod.fst
    · obtain ⟨before, old', after, hsplit⟩ := exists_split hw
      rw [get?_eq hsplit, Option.some.injEq] at h
      simp [hsplit, h]
    · unfold get? at h
      split at h
      · rename_i i hi
        obtain ⟨hlt, hname⟩ := (u.located w i).mp hi
        exact absurd (List.mem_map.mpr ⟨u.entries[i], Array.getElem_mem_toList hlt, hname⟩) hw
      · cases h

theorem mem_insert (u : Usage) (w : String) (count : UInt32) :
    (w, count) ∈ (u.insert w count).toList := by
  by_cases hw : w ∈ u.toList.map Prod.fst
  · obtain ⟨before, old, after, hsplit⟩ := exists_split hw
    simp [toList_insert_of_split hsplit]
  · simp [toList_insert_of_not_mem hw]

/-- The count that is there already may be entered again. -/
theorem toList_insert_self (h : u.get? w = some old) : (u.insert w old).toList = u.toList := by
  obtain ⟨before, after, hsplit⟩ := List.append_of_mem (mem_toList_iff.mpr h)
  rw [toList_insert_of_split hsplit, hsplit]

end Insert

theorem toList_foldl_insert {es : List (String × UInt32)} {u : Usage}
    (h : ((u.toList ++ es).map Prod.fst).Nodup) :
    (es.foldl (fun u e => u.insert e.1 e.2) u).toList = u.toList ++ es := by
  induction es generalizing u with
  | nil => simp
  | cons e es ih =>
    have hfresh : e.1 ∉ u.toList.map Prod.fst := by
      intro hmem
      rw [List.map_append, List.nodup_append] at h
      exact h.2.2 e.1 hmem e.1 (by simp) rfl
    have htoList := toList_insert_of_not_mem hfresh e.2
    rw [List.foldl_cons, ih, htoList]
    · simp
    · rw [htoList]
      simpa using h

/-- Entries of different weapons are entered as they are. -/
theorem toList_ofList {es : List (String × UInt32)} (h : (es.map Prod.fst).Nodup) :
    (ofList es).toList = es := by
  have hempty : empty.toList = [] := rfl
  have hall : ((empty.toList ++ es).map Prod.fst).Nodup := by
    rwa [hempty, List.nil_append]
  rw [ofList, toList_foldl_insert hall, hempty, List.nil_append]

theorem get?_insert (u : Usage) (w : String) (count : UInt32) (v : String) :
    (u.insert w count).get? v = if v = w then some count else u.get? v := by
  split
  · rename_i hv
    rw [hv]
    exact mem_toList_iff.mp (mem_insert u w count)
  · rename_i hv
    apply Option.ext
    intro c
    rw [← mem_toList_iff, ← mem_toList_iff]
    by_cases hw : w ∈ u.toList.map Prod.fst
    · obtain ⟨before, old, after, hsplit⟩ := exists_split hw
      simp [toList_insert_of_split hsplit, hsplit, hv]
    · simp [toList_insert_of_not_mem hw, hv]

theorem names_insert (u : Usage) (w : String) (count : UInt32) :
    (u.insert w count).toList.map Prod.fst =
      u.toList.map Prod.fst ++ [w].removeAll (u.toList.map Prod.fst) := by
  by_cases hw : w ∈ u.toList.map Prod.fst
  · obtain ⟨before, old, after, hsplit⟩ := exists_split hw
    simp [toList_insert_of_split hsplit, hsplit, List.removeAll]
  · rw [toList_insert_of_not_mem hw, List.map_append]
    congr 1
    generalize u.toList.map Prod.fst = names at hw
    simp [List.removeAll, hw]

theorem toList_eq_filterMap (u : Usage) :
    u.toList = (u.toList.map Prod.fst).filterMap (fun w => (u.get? w).map (w, ·)) := by
  have hentry : ∀ e ∈ u.toList, (u.get? e.1).map (e.1, ·) = some e := by
    intro e he
    rw [mem_toList_iff.mp he]
    rfl
  generalize u.toList = es at hentry
  induction es with
  | nil => rfl
  | cons e es ih =>
    rw [List.map_cons, List.filterMap_cons, hentry e (by simp)]
    exact congrArg (e :: ·) (ih (fun e he => hentry e (by simp [he])))

/-- Each weapon at the place of its first count, with its last one. -/
def lastCounts (es : List (String × UInt32)) : List (String × UInt32) :=
  (es.map Prod.fst).eraseDups.filterMap (fun w => (es.reverse.lookup w).map (w, ·))

theorem ofList_concat (es : List (String × UInt32)) (e : String × UInt32) :
    ofList (es ++ [e]) = (ofList es).insert e.1 e.2 := by
  simp [ofList]

theorem names_ofList (es : List (String × UInt32)) :
    (ofList es).toList.map Prod.fst = (es.map Prod.fst).eraseDups := by
  induction es using List.reverseRecOn with
  | nil => rfl
  | append_singleton es e ih =>
    rw [ofList_concat, names_insert, ih, List.map_append, List.eraseDups_append]
    congr 1
    generalize es.map Prod.fst = names
    by_cases hw : e.1 ∈ names <;> simp [List.removeAll, hw, List.eraseDups_cons]

theorem get?_ofList (es : List (String × UInt32)) (w : String) :
    (ofList es).get? w = es.reverse.lookup w := by
  induction es using List.reverseRecOn with
  | nil => rfl
  | append_singleton es e ih =>
    rw [ofList_concat, get?_insert, ih, List.reverse_append, List.reverse_singleton,
      List.singleton_append, List.lookup_cons]
    by_cases hw : w = e.1
    · simp [hw]
    · simp [hw, beq_eq_false_iff_ne.mpr hw]

theorem toList_ofList_eq (es : List (String × UInt32)) : (ofList es).toList = lastCounts es := by
  rw [toList_eq_filterMap, names_ofList, lastCounts]
  simp only [get?_ofList]

/-- The entries tell all that a comparison of usages sees. -/
theorem beq_iff_toList_eq {u v : Usage} : (u == v) = true ↔ u.toList = v.toList := by
  have hpositions : u.entries = v.entries → u.positions.toList = v.positions.toList := by
    intro h
    refine (Std.TreeMap.Equiv.of_forall_constGet?_eq fun w => ?_).toList_eq
    apply Option.ext
    intro i
    rw [u.located, v.located, h]
  change (u.entries == v.entries && u.positions.toList == v.positions.toList) = true ↔ _
  simp only [Bool.and_eq_true, beq_iff_eq, toList]
  constructor
  · intro h
    rw [h.1]
  · intro h
    have hentries : u.entries = v.entries := Array.toList_inj.mp h
    exact ⟨hentries, hpositions hentries⟩

end Allegiance.Usage
