import Mathlib.Data.Finset.Card
import Allegiance.Proofs.Fields
import Allegiance.Proofs.WholeSums

namespace Allegiance.Usage

open Json (Doc)

variable {es : List (String × UInt32)} {u : Usage}

/-- A weapon is found where its name stands among the names. -/
theorem positions_eq_idxOf? (u : Usage) (w : String) :
    u.positions[w]? = (u.toList.map Prod.fst).idxOf? w := by
  apply Option.ext
  intro i
  rw [u.located, List.idxOf?_eq_some_iff]
  simp only [List.length_map, List.getElem_map, toList, Array.length_toList,
    Array.getElem_toList]
  constructor
  · rintro ⟨hi, hw⟩
    refine ⟨hi, hw, ?_⟩
    intro j hj heq
    have := u.place_unique hi (by omega) (hw.trans heq.symm)
    omega
  · rintro ⟨hi, hw, _⟩
    exact ⟨hi, hw⟩

/-- What the index names is an entry, and it is the weapon's. -/
theorem getElem?_of_position {w : String} {i : Nat} (h : u.positions[w]? = some i) :
    ∃ n, u.entries[i]? = some (w, n) := by
  obtain ⟨hi, rfl⟩ := (u.located w i).mp h
  exact ⟨u.entries[i].2, Array.getElem?_eq_getElem hi⟩

theorem position_of_getElem? {i : Nat} {e : String × UInt32} (h : u.entries[i]? = some e) :
    u.positions[e.1]? = some i := by
  obtain ⟨hi, rfl⟩ := Array.getElem?_eq_some_iff.mp h
  exact (u.located _ i).mpr ⟨hi, rfl⟩

/-- Only what was never entered has no last count. -/
theorem lookup_reverse_eq_none {w : String} :
    es.reverse.lookup w = none ↔ w ∉ es.map Prod.fst := by
  rw [List.lookup_eq_none_iff]
  constructor
  · intro h hw
    obtain ⟨e, he, rfl⟩ := List.mem_map.mp hw
    simpa using h e (List.mem_reverse.mpr he)
  · intro h e he
    have hname : e.1 ∈ es.map Prod.fst := List.mem_map_of_mem (List.mem_reverse.mp he)
    exact bne_iff_ne.mpr (fun hw => h (hw ▸ hname))

theorem size_eq_card (u : Usage) : u.size = (u.toList.map Prod.fst).toFinset.card := by
  rw [List.toFinset_card_of_nodup u.nodup_names, List.length_map, toList, Array.length_toList,
    size]

/-- A usage that counts were entered into, in this order. -/
inductive Entered : List (String × UInt32) → Usage → Prop
  | empty : Entered [] .empty
  | insert {es : List (String × UInt32)} {u : Usage} (h : Entered es u) (w : String)
      (count : UInt32) : Entered (es ++ [(w, count)]) (u.insert w count)
  | ofList (es : List (String × UInt32)) : Entered es (.ofList es)
  | read {es : List (String × UInt32)} {d : Doc} {b : Bytes} {u : Usage}
      (htells : d.TellsCounts es) (hspelled : d.IsSpelledBy b)
      (hread : Json.read Usage.read b = .ok u) : Entered es u

theorem read_of_tellsCounts {d : Doc} {b : Bytes} (htells : d.TellsCounts es)
    (hspelled : d.IsSpelledBy b) : Json.read Usage.read b = .ok (ofList es) := by
  rw [Json.read_of_spelled hspelled]
  exact Doc.readUsage_node.mpr ⟨es, htells, rfl⟩

theorem Entered.eq_ofList (h : Entered es u) : u = Usage.ofList es := by
  induction h with
  | empty => rfl
  | insert _ w count ih => rw [ofList_concat, ih]
  | ofList => rfl
  | read htells hspelled hread =>
    rw [read_of_tellsCounts htells hspelled] at hread
    cases hread
    rfl

/-- A usage lists the last count of every weapon that was entered, in the order of the first ones.
The entries and the index stay in step, so a place that is looked up is always there. -/
structure ListsLast (es : List (String × UInt32)) (u : Usage) : Prop where
  entries : u.toList = lastCounts es
  names : u.toList.map Prod.fst = (es.map Prod.fst).eraseDups
  nodup : (u.toList.map Prod.fst).Nodup
  get : ∀ w, u.get? w = es.reverse.lookup w
  missing : ∀ w, u.get? w = none ↔ w ∉ es.map Prod.fst
  place : ∀ w, u.positions[w]? = (es.map Prod.fst).eraseDups.idxOf? w
  entryAt : ∀ w (i : Nat), u.positions[w]? = some i → ∃ n, u.entries[i]? = some (w, n)
  placeOf : ∀ (i : Nat) e, u.entries[i]? = some e → u.positions[e.1]? = some i
  size : u.size = (es.map Prod.fst).toFinset.card
  total_mod : u.total.toNat = allKills (lastCounts es) % 2 ^ 64
  total : (es.map Prod.fst).toFinset.card ≤ 2 ^ 32 + 1 → u.total.toNat = allKills (lastCounts es)
  beq : ∀ es' v, Entered es' v → ((u == v) = true ↔ u.toList = v.toList)
  told : ∀ d b, Doc.TellsCounts d es → d.IsSpelledBy b → Json.read Usage.read b = .ok u

/-- It does not matter in which way the counts were entered. -/
theorem entered_lastCounts (h : Entered es u) : ListsLast es u := by
  obtain rfl := h.eq_ofList
  have hentries := toList_ofList_eq es
  have hnames := names_ofList es
  have hsize : (ofList es).size = (es.map Prod.fst).toFinset.card := by
    rw [size_eq_card, hnames]
    congr 1
    ext w
    simp only [List.mem_toFinset, List.mem_eraseDups]
  have hkills : (ofList es).kills = allKills (lastCounts es) := by
    rw [kills, hentries]
  refine
    { entries := hentries
      names := hnames
      nodup := nodup_names _
      get := get?_ofList es
      missing := ?missing
      place := ?place
      entryAt := fun w i => getElem?_of_position
      placeOf := fun i e => position_of_getElem?
      size := hsize
      total_mod := ?total_mod
      total := ?total
      beq := fun _ _ _ => beq_iff_toList_eq
      told := fun d b => read_of_tellsCounts }
  case missing =>
    intro w
    rw [get?_ofList, lookup_reverse_eq_none]
  case place =>
    intro w
    rw [positions_eq_idxOf?, hnames]
  case total_mod =>
    rw [toNat_total_mod, hkills]
  case total =>
    intro hfew
    rw [toNat_total (kills_lt (hsize ▸ hfew)), hkills]

/-- A weapon that is entered again stays in its place. -/
theorem entered_lastCounts_again :
    Entered [("MP40", 1), ("STG44", 2), ("MP40", 5)]
      ((ofList [("MP40", 1), ("STG44", 2)]).insert "MP40" 5) ∧
    ((ofList [("MP40", 1), ("STG44", 2)]).insert "MP40" 5).toList =
      [("MP40", 5), ("STG44", 2)] := by
  have h : Entered [("MP40", 1), ("STG44", 2), ("MP40", 5)]
      ((ofList [("MP40", 1), ("STG44", 2)]).insert "MP40" 5) :=
    .insert (.ofList [("MP40", 1), ("STG44", 2)]) "MP40" 5
  refine ⟨h, ?_⟩
  rw [(entered_lastCounts h).entries]
  decide

end Allegiance.Usage
