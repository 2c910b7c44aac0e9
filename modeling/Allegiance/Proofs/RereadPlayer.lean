import Allegiance.Proofs.RereadUsage

namespace Allegiance

open Document (Node Misread foldMembers)
open Json (Value)

namespace PlayerStats

/-- Nothing that is told of one player differs from what is told of the other. -/
structure Same (p q : PlayerStats) : Prop where
  id : p.id = q.id
  name : p.name = q.name
  totalKills : p.record.totalKills = q.record.totalKills
  entries : p.record.usage.toList = q.record.usage.toList

theorem Same.symm {p q : PlayerStats} (h : p.Same q) : q.Same p :=
  ⟨h.id.symm, h.name.symm, h.totalKills.symm, h.entries.symm⟩

theorem beq_iff_same {p q : PlayerStats} : (p == q) = true ↔ p.Same q := by
  have hfields : (p == q) = (p.id == q.id && (p.name == q.name &&
      (p.record.totalKills == q.record.totalKills && p.record.usage == q.record.usage))) := rfl
  simp only [hfields, Bool.and_eq_true, beq_iff_eq, Usage.beq_iff_toList_eq]
  constructor
  · rintro ⟨hid, hname, hkills, hentries⟩
    exact ⟨hid, hname, hkills, hentries⟩
  · rintro ⟨hid, hname, hkills, hentries⟩
    exact ⟨hid, hname, hkills, hentries⟩

def reread (p : PlayerStats) : PlayerStats :=
  ⟨p.id, p.name, ⟨p.record.totalKills, .ofList p.record.usage.toList⟩⟩

theorem same_reread (p : PlayerStats) : p.reread.Same p :=
  ⟨rfl, rfl, rfl, Usage.toList_ofList p.record.usage.nodup_names⟩

end PlayerStats

namespace KillRecord

theorem readShared_unknown {members : List (String × Node)}
    (h : ∀ m ∈ members, m.1 ≠ "totalKills" ∧ m.1 ≠ "weaponUsage") (s : Slots) :
    readShared members s = .ok s := by
  induction members with
  | nil => rfl
  | cons m members ih =>
    obtain ⟨hkills, husage⟩ := h m (by simp)
    have hrest := ih (fun m hm => h m (by simp [hm]))
    simp only [readShared, hkills, husage, ↓reduceIte, bind, Except.bind, pure, Except.pure]
    exact hrest

theorem shared_eq_ok {α : Type} {reader : Node → Except Misread α} {value : Node} {x : α}
    (h : reader value = .ok x) (name : String) :
    readShared.shared name none reader value = .ok (some x) := by
  rw [readShared.shared, once_eq_ok h]
  rfl

theorem readShared_totalKills {value : Node} {n : UInt32} (h : value.readUInt32 = .ok n)
    (rest : List (String × Node)) (usage : Option Usage) :
    readShared (("totalKills", value) :: rest) ⟨none, usage⟩ = readShared rest ⟨some n, usage⟩ := by
  simp only [readShared, shared_eq_ok h, ↓reduceIte, bind, Except.bind, pure, Except.pure]

theorem readShared_weaponUsage {value : Node} {u : Usage} (h : Usage.read value = .ok u)
    (rest : List (String × Node)) (totalKills : Option UInt32) :
    readShared (("weaponUsage", value) :: rest) ⟨totalKills, none⟩ =
      readShared rest ⟨totalKills, some u⟩ := by
  simp only [readShared, String.reduceEq, shared_eq_ok h, ↓reduceIte, bind, Except.bind, pure,
    Except.pure]

theorem readShared_written {kills usage : Node} {n : UInt32} {u : Usage}
    (hkills : kills.readUInt32 = .ok n) (husage : Usage.read usage = .ok u)
    {extra : List (String × Node)}
    (h : ∀ m ∈ extra, m.1 ≠ "totalKills" ∧ m.1 ≠ "weaponUsage") :
    readShared (("totalKills", kills) :: ("weaponUsage", usage) :: extra) .empty =
      .ok ⟨some n, some u⟩ := by
  rw [Slots.empty, readShared_totalKills hkills, readShared_weaponUsage husage,
    readShared_unknown h]

end KillRecord

namespace PlayerStats

theorem readMember_other {room : Nat} {name : String} {value : Node} (s : Slots)
    (hid : name ≠ "playerId") (hname : name ≠ "playerName") (h : value.sound room = .ok ()) :
    readMember room s name value = .ok { s with others := s.others.push (name, value) } := by
  simp only [readMember, hid, hname, ↓reduceIte, h]
  rfl

def nodes (id : String) (name : Option String) (others : List (String × Node)) :
    List (Node × Node) :=
  (.text "playerId", .text id) :: (name.toList.map (fun n => (.text "playerName", .text n)) ++
    others.map (fun m => (.text m.1, m.2)))

theorem foldMembers_nodes {room : Nat} (id : String) (name : Option String)
    {others : List (String × Node)}
    (h : ∀ m ∈ others, m.1 ≠ "playerId" ∧ m.1 ≠ "playerName" ∧ m.2.sound room = .ok ()) :
    foldMembers (readMember room) none (nodes id name others) .empty =
      .ok ⟨some id, name.map some, others.toArray⟩ := by
  have hid : readMember room .empty "playerId" (.text id) = .ok ⟨some id, none, #[]⟩ := rfl
  have hname : ∀ n, readMember room ⟨some id, none, #[]⟩ "playerName" (.text n) =
      .ok ⟨some id, some (some n), #[]⟩ := fun n => rfl
  have hothers : ∀ name, foldMembers (readMember room) none
      (others.map (fun m => (.text m.1, m.2))) ⟨some id, name, #[]⟩ =
      .ok ⟨some id, name, others.toArray⟩ := by
    intro name
    have hkept : foldMembers (readMember room) none
        (others.map (fun m => (.text m.1, m.2)) ++ []) ⟨some id, name, #[]⟩ =
        .ok ⟨some id, name, #[] ++ others.toArray⟩ :=
      foldMembers_kept (fun others => Slots.mk (some id) name others)
        (fun m hm _ => readMember_other _ (h m hm).1 (h m hm).2.1 (h m hm).2.2) [] #[]
    rwa [List.append_nil, Array.empty_append] at hkept
  rw [nodes, foldMembers_cons hid]
  cases name with
  | none => exact hothers none
  | some n =>
    rw [Option.toList_some, List.map_singleton, List.singleton_append, foldMembers_cons (hname n)]
    exact hothers (some (some n))

/-- A player is read out of its members if its record is. -/
theorem ofMembers_nodes {room : Nat} (id : String) (name : Option String)
    {others : List (String × Node)} {n : UInt32} {u : Usage}
    (h : ∀ m ∈ others, m.1 ≠ "playerId" ∧ m.1 ≠ "playerName" ∧ m.2.sound room = .ok ())
    (hrecord : KillRecord.readShared others .empty = .ok ⟨some n, some u⟩) :
    ofMembers room (nodes id name others) none = .ok ⟨id, name, ⟨n, u⟩⟩ := by
  have hname : (name.map some).getD none = name := by cases name <;> rfl
  simp only [ofMembers, foldMembers_nodes id name h, finish, Document.required, hrecord, hname,
    bind, Except.bind, pure, Except.pure, KillRecord.Slots.finish, Option.getD_some]

def fields (p : PlayerStats) : List (String × Node) :=
  ("playerId", .text p.id) :: (p.name.toList.map (fun n => ("playerName", .text n)) ++
    [("totalKills", (Value.ofUInt32 p.record.totalKills).node),
     ("weaponUsage", p.record.usage.toJson.node)])

theorem fields_map (p : PlayerStats) (extra : List (String × Node)) :
    (p.fields ++ extra).map (fun m => (Node.text m.1, m.2)) =
      nodes p.id p.name (("totalKills", (Value.ofUInt32 p.record.totalKills).node) ::
        ("weaponUsage", p.record.usage.toJson.node) :: extra) := by
  cases hname : p.name <;> simp [fields, nodes, hname]

/-- What a player is written as is sound, and says nothing of a team. -/
theorem sound_fields {room : Nat} (hroom : 0 < room) (p : PlayerStats) :
    ∀ m ∈ p.fields, m.1 ≠ "team" ∧ m.2.sound room = .ok () := by
  intro m hm
  simp only [fields, List.mem_cons, List.mem_append, List.mem_map, List.not_mem_nil, or_false] at hm
  rcases hm with rfl | ⟨n, _, rfl⟩ | rfl | rfl
  · exact ⟨by simp, rfl⟩
  · exact ⟨by simp, rfl⟩
  · exact ⟨by simp, rfl⟩
  · exact ⟨by simp, p.record.usage.sound_node_toJson hroom⟩

/-- A player is read out of what it is written as, and what comes after is passed over. -/
theorem ofMembers_fields {room : Nat} (hroom : 0 < room) (p : PlayerStats)
    {extra : List (String × Node)}
    (h : ∀ m ∈ extra, m.1 ∉ ["playerId", "playerName", "totalKills", "weaponUsage"] ∧
      m.2.sound room = .ok ()) :
    ofMembers room ((p.fields ++ extra).map (fun m => (.text m.1, m.2))) none = .ok p.reread := by
  rw [fields_map]
  have hkills := readUInt32_ofUInt32 p.record.totalKills
  have hsoundKills : (Value.ofUInt32 p.record.totalKills).node.sound room = .ok () := rfl
  have husage := p.record.usage.read_node_toJson
  have hsoundUsage := p.record.usage.sound_node_toJson hroom
  generalize (Value.ofUInt32 p.record.totalKills).node = kills at *
  generalize p.record.usage.toJson.node = usage at *
  refine ofMembers_nodes _ _ ?_ (KillRecord.readShared_written hkills husage ?_)
  · intro m hm
    simp only [List.mem_cons] at hm
    rcases hm with rfl | rfl | hm
    · exact ⟨by simp, by simp, hsoundKills⟩
    · exact ⟨by simp, by simp, hsoundUsage⟩
    · obtain ⟨hnames, hsound⟩ := h m hm
      simp only [List.mem_cons, not_or] at hnames
      obtain ⟨hid, hname, -⟩ := hnames
      exact ⟨hid, hname, hsound⟩
  · intro m hm
    have hnames := (h m hm).1
    simp only [List.mem_cons, not_or] at hnames
    obtain ⟨-, -, hnotKills, hnotUsage, -⟩ := hnames
    exact ⟨hnotKills, hnotUsage⟩

theorem node_toJson (p : PlayerStats) :
    p.toJson.node = .map (p.fields.map (fun m => (.text m.1, m.2))) none := by
  rw [toJson, members, KillRecord.members, fields]
  cases p.name with
  | none => rfl
  | some n => rfl

theorem read_node_toJson {room : Nat} (hroom : 0 < room) (p : PlayerStats) :
    read room p.toJson.node = .ok p.reread := by
  have h := ofMembers_fields hroom p (List.forall_mem_nil _)
  rw [List.append_nil] at h
  rw [node_toJson]
  exact h

theorem whole_members (p : PlayerStats) : ∀ m ∈ p.members, ∀ v, m.2 = some v → v.Whole := by
  intro m hm v hv
  simp only [members, KillRecord.members, List.cons_append, List.nil_append, List.mem_cons,
    List.not_mem_nil, or_false] at hm
  rcases hm with rfl | rfl | rfl | rfl
  · cases hv
    exact trivial
  · obtain ⟨n, _, rfl⟩ := Option.map_eq_some_iff.mp hv
    exact trivial
  · cases hv
    exact whole_ofUInt32 _
  · cases hv
    exact Usage.whole_toJson _

theorem whole_toJson (p : PlayerStats) : p.toJson.Whole := Value.whole_record p.whole_members

end PlayerStats

namespace ClassifiedPlayer

theorem node_toJson (p : ClassifiedPlayer) :
    p.toJson.node = .map ((p.player.fields ++ [("team", Node.text p.team.name)]).map
      (fun m => (.text m.1, m.2))) none := by
  rw [toJson, PlayerStats.members, KillRecord.members, PlayerStats.fields]
  cases p.player.name with
  | none => rfl
  | some n => rfl

/-- A classified player is read as the player, and the team is passed over. -/
theorem read_player {room : Nat} (hroom : 0 < room) (p : ClassifiedPlayer) :
    PlayerStats.read room p.toJson.node = .ok p.player.reread := by
  rw [node_toJson]
  apply p.player.ofMembers_fields hroom
  intro m hm
  rw [List.mem_singleton.mp hm]
  exact ⟨by simp, rfl⟩

theorem whole_toJson (p : ClassifiedPlayer) : p.toJson.Whole := by
  apply Value.whole_record
  intro m hm v hv
  rcases List.mem_append.mp hm with hm | hm
  · exact p.player.whole_members m hm v hv
  · rw [List.mem_singleton.mp hm] at hv
    cases hv
    exact trivial

end ClassifiedPlayer

end Allegiance
