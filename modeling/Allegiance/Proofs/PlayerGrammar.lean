import Allegiance.Proofs.Fields
import Allegiance.Proofs.RereadPlayer

namespace Allegiance

open Document (Node Reader Misread foldMembers once required)
open Json (Doc)

namespace Json.Doc

/-- The members of a map that tell a player. -/
structure TellPlayer (members : List (String × Doc)) (p : PlayerStats) : Prop where
  id : under "playerId" members = [.text p.id]
  name : Optionally TellsName none (under "playerName" members) p.name
  totalKills : Optionally TellsCount 0 (under "totalKills" members) p.record.totalKills
  weaponUsage : Optionally TellsUsage [] (under "weaponUsage" members) p.record.usage.toList

def TellsPlayer (d : Doc) (p : PlayerStats) : Prop :=
  ∃ members, d = .map members ∧ TellPlayer members p

end Json.Doc

open Json.Doc (Taken under memberNodes taken_cons under_cons_of_ne foldMembers_cons_eq_ok)

namespace PlayerStats

/-- The members that are kept for the kill record, which is read when all of them are met. -/
def otherMembers (members : List (String × Doc)) : List (String × Doc) :=
  members.filter (fun m => m.1 ≠ "playerId" ∧ m.1 ≠ "playerName")

structure Gathered (room : Nat) (members : List (String × Doc)) (s s' : Slots) : Prop where
  id : Taken Node.readText s.id (under "playerId" members) s'.id
  name : Taken (Node.readOption Node.readText) s.name (under "playerName" members) s'.name
  sound : ∀ m ∈ otherMembers members, m.2.node.sound room = .ok ()
  others : s'.others.toList =
    s.others.toList ++ (otherMembers members).map (fun m => (m.1, m.2.node))

theorem gathered_nil {room : Nat} {s s' : Slots} : Gathered room [] s s' ↔ s = s' := by
  constructor
  · rintro ⟨hid, hname, _, hothers⟩
    obtain ⟨id, name, others⟩ := s
    obtain ⟨id', name', others'⟩ := s'
    cases hid
    cases hname
    have : others' = others := Array.toList_inj.mp (hothers.trans (List.append_nil _))
    rw [this]
  · rintro rfl
    exact ⟨.none _, .none _, List.forall_mem_nil _, (List.append_nil _).symm⟩

section Cons

variable {room : Nat} {s s' : Slots} {value : Doc} {members : List (String × Doc)}

theorem gathered_cons_id : Gathered room (("playerId", value) :: members) s s' ↔
    ∃ mid, readMember room s "playerId" value.node = .ok mid ∧ Gathered room members mid s' := by
  have hnames := under_cons_of_ne (by decide : "playerId" ≠ "playerName") value members
  simp only [readMember, ↓reduceIte, Document.exists_fill_iff]
  constructor
  · rintro ⟨hid, hname, hsound, hkept⟩
    obtain ⟨slot, hslot, hid⟩ := taken_cons.mp hid
    exact ⟨slot, hslot, hid, hnames ▸ hname, hsound, hkept⟩
  · rintro ⟨slot, hslot, hid, hname, hsound, hkept⟩
    exact ⟨taken_cons.mpr ⟨slot, hslot, hid⟩, hnames ▸ hname, hsound, hkept⟩

theorem gathered_cons_name : Gathered room (("playerName", value) :: members) s s' ↔
    ∃ mid, readMember room s "playerName" value.node = .ok mid ∧ Gathered room members mid s' := by
  have hids := under_cons_of_ne (by decide : "playerName" ≠ "playerId") value members
  simp only [readMember, String.reduceEq, ↓reduceIte, Document.exists_fill_iff]
  constructor
  · rintro ⟨hid, hname, hsound, hkept⟩
    obtain ⟨slot, hslot, hname⟩ := taken_cons.mp hname
    exact ⟨slot, hslot, hids ▸ hid, hname, hsound, hkept⟩
  · rintro ⟨slot, hslot, hid, hname, hsound, hkept⟩
    exact ⟨hids ▸ hid, taken_cons.mpr ⟨slot, hslot, hname⟩, hsound, hkept⟩

theorem gathered_cons_other {name : String} (hid : name ≠ "playerId")
    (hname : name ≠ "playerName") : Gathered room ((name, value) :: members) s s' ↔
      ∃ mid, readMember room s name value.node = .ok mid ∧ Gathered room members mid s' := by
  have hothers :
      otherMembers ((name, value) :: members) = (name, value) :: otherMembers members := by
    simp [otherMembers, hid, hname]
  have hids := under_cons_of_ne hid value members
  have hnames := under_cons_of_ne hname value members
  have hread : ∀ mid, readMember room s name value.node = .ok mid ↔
      value.node.sound room = .ok () ∧
        { s with others := s.others.push (name, value.node) } = mid := by
    intro mid
    rw [readMember, if_neg hid, if_neg hname, Document.check_bind_eq_ok_iff,
      Document.asRead_eq_ok_iff]
    simp [pure, Except.pure]
  constructor
  · rintro ⟨hid, hname, hsound, hkept⟩
    rw [hothers, List.forall_mem_cons] at hsound
    refine ⟨_, (hread _).mpr ⟨hsound.1, rfl⟩, hids ▸ hid, hnames ▸ hname, hsound.2, ?_⟩
    simp [hkept, hothers]
  · rintro ⟨mid, hmid, hid, hname, hsound, hkept⟩
    obtain ⟨hvalue, rfl⟩ := (hread mid).mp hmid
    refine ⟨hids ▸ hid, hnames ▸ hname, ?_, ?_⟩
    · rw [hothers, List.forall_mem_cons]
      exact ⟨hvalue, hsound⟩
    · simp [hkept, hothers]

end Cons

theorem foldMembers_eq_ok_iff {room : Nat} {members : List (String × Doc)} {s s' : Slots} :
    foldMembers (readMember room) none (memberNodes members) s = .ok s' ↔
      Gathered room members s s' := by
  induction members generalizing s with
  | nil =>
    rw [gathered_nil]
    exact Except.ok.injEq s s' ▸ Iff.rfl
  | cons m members ih =>
    obtain ⟨name, value⟩ := m
    rw [foldMembers_cons_eq_ok]
    simp only [ih]
    by_cases hid : name = "playerId"
    · rw [hid, gathered_cons_id]
    · by_cases hname : name = "playerName"
      · rw [hname, gathered_cons_name]
      · rw [gathered_cons_other hid hname]

end PlayerStats

namespace KillRecord

/-- What kept members do to the slots of a kill record. -/
structure Gathered (members : List (String × Doc)) (s s' : Slots) : Prop where
  totalKills : Taken Node.readUInt32 s.totalKills (under "totalKills" members) s'.totalKills
  usage : Taken Usage.read s.usage (under "weaponUsage" members) s'.usage

theorem shared_eq_ok_iff {α : Type} {name : String} {slot slot' : Option α} {reader : Reader α}
    {t : Node} : readShared.shared name slot reader t = .ok slot' ↔
      once name slot reader t = .ok slot' :=
  Document.mapError_eq_ok_iff

theorem readShared_eq_ok_iff {members : List (String × Doc)} {s s' : Slots} :
    readShared (members.map (fun m => (m.1, m.2.node))) s = .ok s' ↔ Gathered members s s' := by
  induction members generalizing s with
  | nil =>
    constructor
    · intro h
      cases h
      exact ⟨.none _, .none _⟩
    · rintro ⟨hkills, husage⟩
      obtain ⟨kills, usage⟩ := s
      obtain ⟨kills', usage'⟩ := s'
      cases hkills
      cases husage
      rfl
  | cons m members ih =>
    obtain ⟨name, value⟩ := m
    rw [List.map_cons, readShared, Document.bind_eq_ok_iff]
    simp only [ih]
    -- A member is the one field, the other field, or neither; what it is not stays as it was.
    by_cases hkills : name = "totalKills"
    · subst hkills
      have hothers := under_cons_of_ne (by decide : "totalKills" ≠ "weaponUsage") value members
      simp only [↓reduceIte, Document.exists_fill_iff, shared_eq_ok_iff]
      constructor
      · rintro ⟨slot, hslot, htaken, husage⟩
        exact ⟨taken_cons.mpr ⟨slot, hslot, htaken⟩, hothers ▸ husage⟩
      · rintro ⟨htaken, husage⟩
        obtain ⟨slot, hslot, htaken⟩ := taken_cons.mp htaken
        exact ⟨slot, hslot, htaken, hothers ▸ husage⟩
    have hnotKills := under_cons_of_ne hkills value members
    by_cases husage : name = "weaponUsage"
    · subst husage
      simp only [hkills, ↓reduceIte, Document.exists_fill_iff, shared_eq_ok_iff]
      constructor
      · rintro ⟨slot, hslot, htotal, htaken⟩
        exact ⟨hnotKills ▸ htotal, taken_cons.mpr ⟨slot, hslot, htaken⟩⟩
      · rintro ⟨htotal, htaken⟩
        obtain ⟨slot, hslot, htaken⟩ := taken_cons.mp htaken
        exact ⟨slot, hslot, hnotKills ▸ htotal, htaken⟩
    have hnotUsage := under_cons_of_ne husage value members
    simp only [hkills, husage, ↓reduceIte]
    constructor
    · rintro ⟨_, hsame, htotal, htaken⟩
      cases hsame
      exact ⟨hnotKills ▸ htotal, hnotUsage ▸ htaken⟩
    · rintro ⟨htotal, htaken⟩
      exact ⟨s, rfl, hnotKills ▸ htotal, hnotUsage ▸ htaken⟩

end KillRecord

namespace PlayerStats

open Json.Doc (Optionally TellsName TellsCount TellsEntries TellsUsage TellPlayer TellsPlayer)

variable {room : Nat} {members : List (String × Doc)} {p q : PlayerStats}

theorem finish_eq_ok_iff {s : Slots} {others : List (String × Doc)}
    (hothers : s.others.toList = others.map (fun m => (m.1, m.2.node))) :
    finish s = .ok p ↔ s.id = some p.id ∧ s.name.getD none = p.name ∧
      ∃ r, KillRecord.Gathered others .empty r ∧ r.finish = p.record := by
  obtain ⟨id, name, record⟩ := p
  rw [finish, Document.bind_eq_ok_iff, hothers]
  simp only [Document.fill_eq_ok_iff, KillRecord.readShared_eq_ok_iff]
  cases s.id with
  | none => simp [required]
  | some id' =>
    simp only [required, Except.ok.injEq, exists_eq_left', Option.some.injEq, mk.injEq]
    constructor
    · rintro ⟨r, hr, rfl, rfl, rfl⟩
      exact ⟨rfl, rfl, r, hr, rfl⟩
    · rintro ⟨rfl, rfl, r, hr, rfl⟩
      exact ⟨r, hr, rfl, rfl, rfl⟩

theorem under_otherMembers {name : String} (hid : name ≠ "playerId") (hname : name ≠ "playerName")
    (members : List (String × Doc)) : under name (otherMembers members) = under name members := by
  rw [under, otherMembers, List.filter_filter, under]
  congr 2
  funext m
  by_cases hm : m.1 = name
  · simp [hm, hid, hname]
  · simp [hm]

/-- The fields a player is read from, and the other members, which are only looked at. -/
structure ReadFrom (room : Nat) (members : List (String × Doc)) (p : PlayerStats) : Prop where
  id : under "playerId" members = [.text p.id]
  name : Optionally TellsName none (under "playerName" members) p.name
  totalKills : Optionally TellsCount 0 (under "totalKills" members) p.record.totalKills
  usage : Optionally TellsEntries .empty (under "weaponUsage" members) p.record.usage
  sound : ∀ m ∈ otherMembers members, m.2.node.sound room = .ok ()

theorem taken_text {values : List Doc} {s : String} :
    Taken Node.readText none values (some s) ↔ values = [.text s] := by
  rw [Json.Doc.taken_some_iff]
  constructor
  · rintro ⟨v, hvalues, hs⟩
    cases Json.Doc.readText_node.mp hs
    exact hvalues
  · intro hvalues
    exact ⟨.text s, hvalues, rfl⟩

theorem read_eq_ok_iff :
    read room (Doc.map members).node = .ok p ↔ ReadFrom room members p := by
  rw [Doc.node, read, ofMembers, Document.bind_eq_ok_iff]
  simp only [foldMembers_eq_ok_iff]
  constructor
  · rintro ⟨s, ⟨hid, hname, hsound, hothers⟩, hfinish⟩
    obtain ⟨hid', hname', r, ⟨hkills, husage⟩, hrecord⟩ := (finish_eq_ok_iff hothers).mp hfinish
    rw [under_otherMembers (by decide) (by decide)] at hkills husage
    rw [hid'] at hid
    refine ⟨taken_text.mp hid, ?_, ?_, ?_, hsound⟩
    · exact (Json.Doc.taken_iff_optionally Json.Doc.readName_node).mp ⟨s.name, hname, hname'⟩
    · exact (Json.Doc.taken_iff_optionally Json.Doc.readUInt32_node).mp
        ⟨r.totalKills, hkills, congrArg KillRecord.totalKills hrecord⟩
    · exact (Json.Doc.taken_iff_optionally Json.Doc.readUsage_node).mp
        ⟨r.usage, husage, congrArg KillRecord.usage hrecord⟩
  · rintro ⟨hid, hname, hkills, husage, hsound⟩
    obtain ⟨name, hname, hname'⟩ :=
      (Json.Doc.taken_iff_optionally Json.Doc.readName_node).mpr hname
    obtain ⟨kills, hkills, hkills'⟩ :=
      (Json.Doc.taken_iff_optionally Json.Doc.readUInt32_node).mpr hkills
    obtain ⟨usage, husage, husage'⟩ :=
      (Json.Doc.taken_iff_optionally Json.Doc.readUsage_node).mpr husage
    refine ⟨⟨some p.id, name, ((otherMembers members).map (fun m => (m.1, m.2.node))).toArray⟩,
      ⟨taken_text.mpr hid, hname, hsound, ?_⟩, ?_⟩
    · simp [Slots.empty]
    · refine (finish_eq_ok_iff List.toList_toArray).mpr
        ⟨rfl, hname', ⟨kills, usage⟩, ⟨?_, ?_⟩, ?_⟩
      · rwa [under_otherMembers (by decide) (by decide)]
      · rwa [under_otherMembers (by decide) (by decide)]
      · rw [KillRecord.Slots.finish, hkills', husage']

/-- The members of the player itself are sound, since they are texts and null. -/
theorem ReadFrom.sound_all (h : ReadFrom room members p) :
    ∀ m ∈ members, m.2.node.sound room = .ok () := by
  intro m hm
  have hunder : m.2 ∈ under m.1 members :=
    List.mem_map.mpr ⟨m, List.mem_filter.mpr ⟨hm, by simp⟩, rfl⟩
  by_cases hid : m.1 = "playerId"
  · rw [hid, h.id, List.mem_singleton] at hunder
    rw [hunder]
    rfl
  by_cases hname : m.1 = "playerName"
  · rw [hname] at hunder
    rcases h.name with ⟨hnone, _⟩ | ⟨v, hvalues, htells⟩
    · rw [hnone] at hunder
      cases hunder
    · rw [hvalues, List.mem_singleton] at hunder
      rw [hunder]
      generalize p.name = name at htells
      cases htells <;> rfl
  exact h.sound m (List.mem_filter.mpr ⟨hm, by simp [hid, hname]⟩)

theorem ReadFrom.tells (h : ReadFrom room members p) : TellPlayer members p :=
  ⟨h.id, h.name, h.totalKills, Json.Doc.optionally_usage.mpr ⟨p.record.usage, h.usage, rfl⟩⟩

theorem readFrom_of_tells (h : TellPlayer members p)
    (hsound : ∀ m ∈ members, m.2.node.sound room = .ok ()) :
    ∃ q, ReadFrom room members q ∧ q.Same p := by
  obtain ⟨u, husage, hentries⟩ := Json.Doc.optionally_usage.mp h.weaponUsage
  refine ⟨⟨p.id, p.name, ⟨p.record.totalKills, u⟩⟩, ?_, ⟨rfl, rfl, rfl, hentries⟩⟩
  exact ⟨h.id, h.name, h.totalKills, husage, fun m hm => hsound m (List.mem_filter.mp hm).1⟩

theorem tellPlayer_of_same (h : TellPlayer members p) (hsame : q.Same p) :
    TellPlayer members q := by
  obtain ⟨hid, hname, hkills, hentries⟩ := hsame
  exact ⟨hid ▸ h.id, hname ▸ h.name, hkills ▸ h.totalKills, hentries ▸ h.weaponUsage⟩

theorem exists_map_of_read {d : Doc} (h : read room d.node = .ok p) :
    ∃ members, d = .map members := by
  cases d with
  | map members => exact ⟨members, rfl⟩
  | number l =>
    exact absurd h (l.read_ne_ok (read room) (by rintro _ ⟨⟩) (by rintro _ ⟨⟩) (by rintro ⟨⟩))
  | _ => cases h

theorem read_tells {d : Doc} (h : read room d.node = .ok p) :
    d.TellsPlayer p ∧ d.InRange ∧ d.depth ≤ room + 1 := by
  obtain ⟨members, rfl⟩ := exists_map_of_read h
  have hread := read_eq_ok_iff.mp h
  exact ⟨⟨members, rfl, hread.tells⟩, Json.Doc.inRange_map.mpr hread.sound_all⟩

theorem exists_read_of_tells {d : Doc} (h : d.TellsPlayer p) (hrange : d.InRange)
    (hdepth : d.depth ≤ room + 1) : ∃ q, read room d.node = .ok q ∧ q.Same p := by
  obtain ⟨members, rfl, h⟩ := h
  obtain ⟨q, hread, hsame⟩ := readFrom_of_tells h (Json.Doc.inRange_map.mp ⟨hrange, hdepth⟩)
  exact ⟨q, read_eq_ok_iff.mpr hread, hsame⟩

/-- A usage that comes first, names a weapon twice and stands beside a member nobody asks for. -/
def scattered : Json.Value :=
  .object [
    ("weaponUsage", .object [("MP 40", .integer 1), ("BAR", .integer 2), ("MP 40", .integer 3)]),
    ("seen", .list [.text "playerId"]), ("playerId", .text "7")]

end PlayerStats

end Allegiance
