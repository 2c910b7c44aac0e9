import Allegiance.Proofs.Moments
import Allegiance.Proofs.RereadMatch

namespace Allegiance

open Document (Node Misread foldMembers)
open Json (Value)

theorem Label.read_name (l : Label) : Label.read .json (.text l.name) = .ok l := by
  cases l <;> rfl

theorem Instant.readInstant_toText (t : Instant) :
    (Node.text t.toText).readInstant = .ok t := by
  rw [Node.readInstant, ofText_toText]
  rfl

namespace Summary

theorem ofMembers_counts {axis allies mixed unknown : Node} {s : Summary}
    (haxis : axis.readUInt32 = .ok s.axis) (hallies : allies.readUInt32 = .ok s.allies)
    (hmixed : mixed.readUInt32 = .ok s.mixed) (hunknown : unknown.readUInt32 = .ok s.unknown) :
    ofMembers [(.text "axis", axis), (.text "allies", allies), (.text "mixed", mixed),
      (.text "unknown", unknown)] none = .ok s := by
  simp only [ofMembers, foldMembers, Node.nameOf, readMember, once_eq_ok haxis,
    once_eq_ok hallies, once_eq_ok hmixed, once_eq_ok hunknown, String.reduceEq, ↓reduceIte, bind,
    Except.bind, pure, Except.pure]
  rfl

theorem read_node_toJson (s : Summary) : read s.toJson.node = .ok s :=
  ofMembers_counts (readUInt32_ofUInt32 s.axis) (readUInt32_ofUInt32 s.allies)
    (readUInt32_ofUInt32 s.mixed) (readUInt32_ofUInt32 s.unknown)

end Summary

namespace ClassifiedPlayer

def reread (p : ClassifiedPlayer) : ClassifiedPlayer := ⟨p.player.reread, p.team⟩

theorem readMember_other {room : Nat} {name : String} {value : Node} (s : Slots)
    (hteam : name ≠ "team") (h : value.sound room = .ok ()) :
    readMember room s name value = .ok { s with others := s.others.push (name, value) } := by
  simp only [readMember, hteam, ↓reduceIte, h]
  rfl

theorem readMember_team {room : Nat} (others : Array (String × Node)) (l : Label) :
    readMember room ⟨none, others⟩ "team" (.text l.name) = .ok ⟨some l, others⟩ := by
  simp only [readMember, ↓reduceIte, once_eq_ok l.read_name, bind, Except.bind, pure, Except.pure]

theorem read_node_toJson {room : Nat} (hroom : 0 < room) (p : ClassifiedPlayer) :
    read room p.toJson.node = .ok p.reread := by
  have hkept : foldMembers (readMember room) none
      ((p.player.fields ++ [("team", Node.text p.team.name)]).map (fun m => (.text m.1, m.2)))
      .empty =
      .ok ⟨some p.team, p.player.fields.toArray⟩ := by
    rw [List.map_append, Slots.empty]
    refine (foldMembers_kept (Slots.mk none) (fun m hm others => ?_) _ #[]).trans ?_
    · obtain ⟨hteam, hsound⟩ := p.player.sound_fields hroom m hm
      exact readMember_other _ hteam hsound
    · rw [List.map_singleton, foldMembers_cons (readMember_team _ _), Array.empty_append]
      rfl
  have hplayer := p.player.ofMembers_fields hroom (List.forall_mem_nil _)
  rw [List.append_nil] at hplayer
  rw [node_toJson, read]
  simp only [hkept, finish, Document.required, hplayer, bind, Except.bind, pure, Except.pure]
  rfl

end ClassifiedPlayer

namespace ClassifiedMatch

def rereadAll (r : ClassifiedMatch) : ClassifiedMatch :=
  { r with players := r.players.map ClassifiedPlayer.reread }

theorem readPlayers_node (r : ClassifiedMatch) :
    readPlayers (Value.list (r.players.map ClassifiedPlayer.toJson)).node =
      .ok (r.players.map ClassifiedPlayer.reread) :=
  readList_node (fun p _ => p.read_node_toJson (by decide))

/-- A classified match is read out of its members, whether its id is there or not. -/
theorem ofMembers_nodes (matchId : Option String) (version : String) {time : String}
    {players summary : Node} {t : Instant} {ps : List ClassifiedPlayer} {s : Summary}
    (htime : (Node.text time).readInstant = .ok t) (hplayers : readPlayers players = .ok ps)
    (hsummary : Summary.read summary = .ok s) :
    ofMembers (nodes matchId version time players summary) none =
      .ok ⟨matchId, version, t, ps, s⟩ := by
  have hid : ∀ id, Document.once "matchId" none (Node.readOption Node.readText) (.text id) =
      .ok (some (some id)) := fun id => rfl
  have hversion : Document.once "taxonomyVersion" none Node.readText (.text version) =
      .ok (some version) := rfl
  cases matchId with
  | none =>
    simp only [nodes, Option.toList_none, List.map_nil, List.nil_append, ofMembers, foldMembers,
      Node.nameOf, readMember, hversion, once_eq_ok htime, once_eq_ok hplayers,
      once_eq_ok hsummary, String.reduceEq, ↓reduceIte, bind, Except.bind, pure, Except.pure]
    rfl
  | some id =>
    simp only [nodes, Option.toList_some, List.map_singleton, List.singleton_append, ofMembers,
      foldMembers, Node.nameOf, readMember, hid, hversion, once_eq_ok htime, once_eq_ok hplayers,
      once_eq_ok hsummary, String.reduceEq, ↓reduceIte, bind, Except.bind, pure, Except.pure]
    rfl

/-- A classified match that was written is read with all that is told of it. -/
theorem read_node_toJson (r : ClassifiedMatch) : read r.toJson.node = .ok r.rereadAll := by
  rw [node_toJson]
  exact ofMembers_nodes r.matchId r.taxonomyVersion r.classifiedAt.readInstant_toText
    r.readPlayers_node r.summary.read_node_toJson

end ClassifiedMatch

end Allegiance
