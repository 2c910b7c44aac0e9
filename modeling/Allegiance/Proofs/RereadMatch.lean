import Allegiance.Proofs.RereadPlayer

namespace Allegiance

open Document (Node Misread foldMembers)
open Json (Value)

theorem readAll_itemNodes {α β : Type} {reader : Node → Except Misread α} {write : β → Value}
    {back : β → α} {items : List β} (h : ∀ b ∈ items, reader (write b).node = .ok (back b))
    (i : Nat) :
    Node.readAll reader i (Value.itemNodes (items.map write)) = .ok (items.map back) := by
  induction items generalizing i with
  | nil => rfl
  | cons b items ih =>
    have hrest := ih (fun c hc => h c (by simp [hc])) (i + 1)
    have hitem : Document.within (.index i) (reader (write b).node) = .ok (back b) := by
      rw [h b (by simp)]
      rfl
    simp only [List.map_cons, Value.itemNodes, Node.readAll, hitem, hrest, bind, Except.bind, pure,
      Except.pure]

theorem readList_node {α β : Type} {reader : Node → Except Misread α} {write : β → Value}
    {back : β → α} {items : List β} (h : ∀ b ∈ items, reader (write b).node = .ok (back b)) :
    Node.readList reader (Value.list (items.map write)).node = .ok (items.map back) := by
  simp only [Value.node, Node.readList, readAll_itemNodes h, bind, Except.bind]
  rfl

namespace Json.Value

mutual

/-- Whatever was written is sound enough to be passed over. -/
theorem passedOver_node : ∀ v : Value, v.node.passedOver = .ok ()
  | integer i => rfl
  | real x => rfl
  | text s => rfl
  | list items => by
    rw [node, Node.passedOver, passedOverAll_itemNodes items]
    rfl
  | object members => by
    rw [node, Node.passedOver, passedOverMembers_memberNodes members]
    rfl

theorem passedOverAll_itemNodes : ∀ items, Node.passedOverAll (itemNodes items) = .ok ()
  | [] => rfl
  | item :: items => by
    rw [itemNodes, Node.passedOverAll, passedOver_node item]
    exact passedOverAll_itemNodes items

theorem passedOverMembers_memberNodes :
    ∀ members, Node.passedOverMembers (memberNodes members) = .ok ()
  | [] => rfl
  | (name, value) :: members => by
    rw [memberNodes, Node.passedOverMembers, passedOver_node value]
    exact passedOverMembers_memberNodes members

end

end Json.Value

namespace MatchStats

theorem readMember_players {value : Node} {players : List PlayerStats}
    (h : readPlayers value = .ok players) (matchId : Option (Option String)) :
    readMember ⟨matchId, none⟩ "players" value = .ok ⟨matchId, some players⟩ := by
  simp only [readMember, String.reduceEq, ↓reduceIte, once_eq_ok h, bind, Except.bind, pure,
    Except.pure]

theorem readMember_unknown {name : String} {value : Node} (s : Slots) (hid : name ≠ "matchId")
    (hplayers : name ≠ "players") (h : value.passedOver = .ok ()) :
    readMember s name value = .ok s := by
  simp only [readMember, hid, hplayers, ↓reduceIte, h]
  rfl

end MatchStats

namespace ClassifiedMatch

def reread (r : ClassifiedMatch) : List PlayerStats := r.players.map (fun p => p.player.reread)

theorem read_players (r : ClassifiedMatch) :
    MatchStats.readPlayers (Value.list (r.players.map ClassifiedPlayer.toJson)).node =
      .ok r.reread :=
  readList_node (fun p _ => p.read_player (by decide))

def nodes (matchId : Option String) (version time : String) (players summary : Node) :
    List (Node × Node) :=
  matchId.toList.map (fun id => (.text "matchId", .text id)) ++
    [(.text "taxonomyVersion", .text version), (.text "classifiedAt", .text time),
     (.text "players", players), (.text "summary", summary)]

theorem node_toJson (r : ClassifiedMatch) :
    r.toJson.node = .map (nodes r.matchId r.taxonomyVersion r.classifiedAt.toText
      (Value.list (r.players.map ClassifiedPlayer.toJson)).node r.summary.toJson.node) none := by
  rw [toJson, nodes]
  cases r.matchId with
  | none => rfl
  | some id => rfl

theorem foldMembers_nodes (matchId : Option String) (version time : String)
    {players summary : Node} {ps : List PlayerStats}
    (hplayers : MatchStats.readPlayers players = .ok ps) (hsummary : summary.passedOver = .ok ()) :
    foldMembers MatchStats.readMember none (nodes matchId version time players summary)
      ⟨none, none⟩ = .ok ⟨matchId.map some, some ps⟩ := by
  have hrest : ∀ slot, foldMembers MatchStats.readMember none
      [(.text "taxonomyVersion", .text version), (.text "classifiedAt", .text time),
        (.text "players", players), (.text "summary", summary)] ⟨slot, none⟩ =
      .ok ⟨slot, some ps⟩ := by
    intro slot
    rw [foldMembers_cons (MatchStats.readMember_unknown _ (by simp) (by simp) rfl),
      foldMembers_cons (MatchStats.readMember_unknown _ (by simp) (by simp) rfl),
      foldMembers_cons (MatchStats.readMember_players hplayers _),
      foldMembers_cons (MatchStats.readMember_unknown _ (by simp) (by simp) hsummary)]
    rfl
  have hid : ∀ id, MatchStats.readMember ⟨none, none⟩ "matchId" (.text id) =
      .ok ⟨some (some id), none⟩ := fun id => rfl
  cases matchId with
  | none => exact hrest none
  | some id =>
    rw [nodes, Option.toList_some, List.map_singleton, List.singleton_append,
      foldMembers_cons (hid id), hrest]
    rfl

/-- A classified match is read as the match, and what was added is passed over. -/
theorem read_match (r : ClassifiedMatch) :
    MatchStats.read r.toJson.node = .ok ⟨r.matchId, r.reread⟩ := by
  have hfold := foldMembers_nodes r.matchId r.taxonomyVersion r.classifiedAt.toText r.read_players
    r.summary.toJson.passedOver_node
  have hid : (r.matchId.map some).getD none = r.matchId := by cases r.matchId <;> rfl
  rw [node_toJson, MatchStats.read, Document.readRecord]
  simp only [hfold, bind, Except.bind, pure, Except.pure, MatchStats.Slots.finish, hid,
    Option.getD_some]

theorem whole_toJson (r : ClassifiedMatch) : r.toJson.Whole := by
  apply Value.whole_record
  intro m hm v hv
  simp only [List.mem_cons, List.not_mem_nil, or_false] at hm
  rcases hm with rfl | rfl | rfl | rfl | rfl
  · obtain ⟨n, _, rfl⟩ := Option.map_eq_some_iff.mp hv
    exact trivial
  · cases hv
    exact trivial
  · cases hv
    exact trivial
  · cases hv
    apply Value.wholeItems_iff.mpr
    intro v hv
    obtain ⟨p, _, rfl⟩ := List.mem_map.mp hv
    exact p.whole_toJson
  · cases hv
    apply Value.whole_record
    intro m hm v hv
    obtain ⟨l, _, rfl⟩ := List.mem_map.mp hm
    cases hv
    exact whole_ofUInt32 _

end ClassifiedMatch

end Allegiance
