import Allegiance.Proofs.Entries
import Allegiance.Proofs.Layouts
import Allegiance.Match.Reading
import Allegiance.Match.Writing

namespace Allegiance

open Document (Node Check Misread foldMembers)
open Json (Value)

theorem foldMembers_cons {σ : Type} {step : σ → String → Node → Except Misread σ}
    {cut : Option Document.Flaw} {name : String} {value : Node} {rest : List (Node × Node)}
    {s s' : σ} (h : step s name value = .ok s') :
    foldMembers step cut ((.text name, value) :: rest) s = foldMembers step cut rest s' := by
  simp only [foldMembers, Node.nameOf, h, bind, Except.bind]

/-- Members that are kept for later are followed by the other members. -/
theorem foldMembers_kept {σ : Type} {step : σ → String → Node → Except Misread σ}
    {cut : Option Document.Flaw} (keep : Array (String × Node) → σ) {kept : List (String × Node)}
    (h : ∀ m ∈ kept, ∀ others, step (keep others) m.1 m.2 = .ok (keep (others.push m)))
    (rest : List (Node × Node)) (others : Array (String × Node)) :
    foldMembers step cut (kept.map (fun m => (.text m.1, m.2)) ++ rest) (keep others) =
      foldMembers step cut rest (keep (others ++ kept.toArray)) := by
  induction kept generalizing others with
  | nil => simp
  | cons m kept ih =>
    rw [List.map_cons, List.cons_append, foldMembers_cons (h m (by simp) others),
      ih (fun m hm => h m (by simp [hm]))]
    simp

/-- A field that is met for the first time is taken up. -/
theorem once_eq_ok {α : Type} {reader : Node → Except Misread α} {value : Node} {x : α}
    (h : reader value = .ok x) (name : String) :
    Document.once name none reader value = .ok (some x) := by
  rw [Document.once, h]
  rfl

theorem readNat_of_lt {n bound : Nat} (h : n < bound) (wanted : String) :
    Node.readNat bound wanted (.integer n) = .ok n := by
  simp [Node.readNat, h]

theorem readUInt32_ofUInt32 (n : UInt32) : (Value.ofUInt32 n).node.readUInt32 = .ok n := by
  rw [Value.ofUInt32, Value.node, Node.readUInt32, readNat_of_lt n.toNat_lt, Except.map,
    UInt32.ofNat_toNat]

theorem whole_ofUInt32 (n : UInt32) : (Value.ofUInt32 n).Whole := by
  have hlt := n.toNat_lt
  refine ⟨by simp, ?_⟩
  simp only [UInt64.size]
  omega

namespace Usage

def nodes (es : List (String × UInt32)) : List (Node × Node) :=
  es.map (fun e => (.text e.1, (Value.ofUInt32 e.2).node))

theorem node_toJson (u : Usage) : u.toJson.node = .map (nodes u.toList) none := by
  simp [toJson, Value.node, Value.memberNodes_eq_map, nodes]

theorem readMember_ofUInt32 (u : Usage) (w : String) (n : UInt32) :
    readMember u w (Value.ofUInt32 n).node = .ok (u.insert w n) := by
  rw [readMember, readUInt32_ofUInt32, Except.map]

theorem foldMembers_nodes (es : List (String × UInt32)) (u : Usage) :
    foldMembers readMember none (nodes es) u =
      .ok (es.foldl (fun u e => u.insert e.1 e.2) u) := by
  induction es generalizing u with
  | nil => rfl
  | cons e es ih =>
    rw [nodes, List.map_cons, foldMembers_cons (readMember_ofUInt32 u e.1 e.2)]
    exact ih (u.insert e.1 e.2)

/-- A usage that was written is read with the same entries in the same order. -/
theorem read_node_toJson (u : Usage) : read u.toJson.node = .ok (ofList u.toList) := by
  rw [node_toJson]
  exact foldMembers_nodes u.toList empty

theorem sound_node_toJson (u : Usage) {room : Nat} (h : 0 < room) :
    u.toJson.node.sound room = .ok () := by
  obtain ⟨room, rfl⟩ := Nat.exists_eq_succ_of_ne_zero (by omega : room ≠ 0)
  have hall : ∀ es, Node.soundMembers room (nodes es) = .ok () := by
    intro es
    induction es with
    | nil => rfl
    | cons e es ih => exact ih
  rw [node_toJson, Node.sound, hall]
  rfl

theorem whole_toJson (u : Usage) : u.toJson.Whole := by
  apply Value.wholeMembers_iff.mpr
  intro m hm
  obtain ⟨e, _, rfl⟩ := List.mem_map.mp hm
  exact whole_ofUInt32 e.2

end Usage

end Allegiance
