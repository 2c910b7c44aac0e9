import Allegiance.Document.Names
import Allegiance.Match.Classified
import Allegiance.Usage.Reading

namespace Allegiance

open Document

namespace KillRecord

structure Slots where
  totalKills : Option UInt32
  usage : Option Usage

namespace Slots

def empty : Slots := ⟨none, none⟩

def finish (s : Slots) : KillRecord := ⟨s.totalKills.getD 0, s.usage.getD .empty⟩

end Slots

def readMember (s : Slots) (name : String) (value : Node) : Except Misread Slots :=
  if name = "totalKills" then do
    pure { s with totalKills := ← once name s.totalKills Node.readUInt32 value }
  else if name = "weaponUsage" then do pure { s with usage := ← once name s.usage Usage.read value }
  else do value.passedOver.asRead; pure s

def read : Reader KillRecord :=
  readRecord "struct PlayerKillRecord"
    (fun l => do
      let totalKills ← l.get? 0 Node.readUInt32
      let usage ← l.get? 1 Usage.read
      l.finish .json 2
      pure (Slots.finish ⟨totalKills, usage⟩))
    (fun members cut => do pure (← foldMembers readMember cut members .empty).finish)

/-- Read a kill record out of members of an enclosing map, of which it takes what it knows. What is
wrong with them is told of that map. -/
def readShared : List (String × Node) → Slots → Except Misread Slots
  | [], s => pure s
  | (name, value) :: rest, s => do
    let s ← (
      if name = "totalKills" then do
        pure { s with totalKills := ← shared name s.totalKills Node.readUInt32 value }
      else if name = "weaponUsage" then do
        pure { s with usage := ← shared name s.usage Usage.read value }
      else pure s)
    readShared rest s
where
  shared {α : Type} (name : String) (slot : Option α) (reader : Reader α) (value : Node) :
      Except Misread (Option α) :=
    (once name slot reader value).mapError fun
      | .misfit _ cause => .misfit [] cause
      | broken => broken

end KillRecord

/-- How deep the other members of a player may be nested: a document is at most 127 deep. -/
def playerRoom : Nat := 126

/-- The same for a player in the list of a match, which lies two levels deeper. -/
def memberRoom : Nat := 124

namespace PlayerStats

/-- The fields of a player met so far. The other members are read for the kill record once the whole
map has been seen. -/
structure Slots where
  id : Option String
  name : Option (Option String)
  others : Array (String × Node)

def Slots.empty : Slots := ⟨none, none, #[]⟩

def readMember (room : Nat) (s : Slots) (name : String) (value : Node) : Except Misread Slots :=
  if name = "playerId" then do pure { s with id := ← once name s.id Node.readText value }
  else if name = "playerName" then do
    pure { s with name := ← once name s.name (Node.readOption Node.readText) value }
  else do
    (value.sound room).asRead
    pure { s with others := s.others.push (name, value) }

def finish (s : Slots) : Except Misread PlayerStats := do
  let id ← required "playerId" s.id
  let record ← KillRecord.readShared s.others.toList .empty
  pure ⟨id, s.name.getD none, record.finish⟩

def ofMembers (room : Nat) (members : List (Node × Node)) (cut : Option Flaw) :
    Except Misread PlayerStats := do
  finish (← foldMembers (readMember room) cut members .empty)

def read (room : Nat) : Reader PlayerStats
  | .map members cut => ofMembers room members cut
  | n => n.unexpected "struct PlayerStats"

end PlayerStats

namespace ClassifiedPlayer

structure Slots where
  team : Option Label
  others : Array (String × Node)

def Slots.empty : Slots := ⟨none, #[]⟩

def readMember (room : Nat) (s : Slots) (name : String) (value : Node) : Except Misread Slots :=
  if name = "team" then do pure { s with team := ← once name s.team (Label.read .json) value }
  else do
    (value.sound room).asRead
    pure { s with others := s.others.push (name, value) }

def finish (room : Nat) (s : Slots) : Except Misread ClassifiedPlayer := do
  let team ← required "team" s.team
  let player ← PlayerStats.ofMembers room (s.others.toList.map (fun m => (.text m.1, m.2))) none
  pure ⟨player, team⟩

def read (room : Nat) : Reader ClassifiedPlayer
  | .map members cut => do
    finish room (← foldMembers (readMember room) cut members .empty)
  | n => n.unexpected "struct ClassifiedPlayer"

end ClassifiedPlayer

namespace Summary

structure Slots where
  axis : Option UInt32
  allies : Option UInt32
  mixed : Option UInt32
  unknown : Option UInt32

def readMember (s : Slots) (name : String) (value : Node) : Except Misread Slots :=
  if name = "axis" then do pure { s with axis := ← once name s.axis Node.readUInt32 value }
  else if name = "allies" then do pure { s with allies := ← once name s.allies Node.readUInt32 value }
  else if name = "mixed" then do pure { s with mixed := ← once name s.mixed Node.readUInt32 value }
  else if name = "unknown" then do
    pure { s with unknown := ← once name s.unknown Node.readUInt32 value }
  else do value.passedOver.asRead; pure s

def ofItems (l : Items) : Except Misread Summary := do
  let wanted := "struct TeamSummary with 4 elements"
  let axis ← l.get 0 wanted Node.readUInt32
  let allies ← l.get 1 wanted Node.readUInt32
  let mixed ← l.get 2 wanted Node.readUInt32
  let unknown ← l.get 3 wanted Node.readUInt32
  l.finish .json 4
  pure ⟨axis, allies, mixed, unknown⟩

def ofMembers (members : List (Node × Node)) (cut : Option Flaw) : Except Misread Summary := do
  let s ← foldMembers readMember cut members ⟨none, none, none, none⟩
  let axis ← required "axis" s.axis
  let allies ← required "allies" s.allies
  let mixed ← required "mixed" s.mixed
  let unknown ← required "unknown" s.unknown
  pure ⟨axis, allies, mixed, unknown⟩

def read : Reader Summary := readRecord "struct TeamSummary" ofItems ofMembers

end Summary

namespace MatchStats

structure Slots where
  matchId : Option (Option String)
  players : Option (List PlayerStats)

def Slots.finish (s : Slots) : MatchStats := ⟨s.matchId.getD none, s.players.getD []⟩

def readPlayers : Reader (List PlayerStats) := Node.readList (PlayerStats.read memberRoom)

def readMember (s : Slots) (name : String) (value : Node) : Except Misread Slots :=
  if name = "matchId" then do
    pure { s with matchId := ← once name s.matchId (Node.readOption Node.readText) value }
  else if name = "players" then do pure { s with players := ← once name s.players readPlayers value }
  else do value.passedOver.asRead; pure s

def read : Reader MatchStats :=
  readRecord "struct MatchStats"
    (fun l => do
      let matchId ← l.get? 0 (Node.readOption Node.readText)
      let players ← l.get? 1 readPlayers
      l.finish .json 2
      pure (Slots.finish ⟨matchId, players⟩))
    (fun members cut => do pure (← foldMembers readMember cut members ⟨none, none⟩).finish)

end MatchStats

namespace ClassifiedMatch

structure Slots where
  matchId : Option (Option String)
  taxonomyVersion : Option String
  classifiedAt : Option Instant
  players : Option (List ClassifiedPlayer)
  summary : Option Summary

def readPlayers : Reader (List ClassifiedPlayer) := Node.readList (ClassifiedPlayer.read memberRoom)

def readMember (s : Slots) (name : String) (value : Node) : Except Misread Slots :=
  if name = "matchId" then do
    pure { s with matchId := ← once name s.matchId (Node.readOption Node.readText) value }
  else if name = "taxonomyVersion" then do
    pure { s with taxonomyVersion := ← once name s.taxonomyVersion Node.readText value }
  else if name = "classifiedAt" then do
    pure { s with classifiedAt := ← once name s.classifiedAt Node.readInstant value }
  else if name = "players" then do pure { s with players := ← once name s.players readPlayers value }
  else if name = "summary" then do pure { s with summary := ← once name s.summary Summary.read value }
  else do value.passedOver.asRead; pure s

def ofItems (l : Items) : Except Misread ClassifiedMatch := do
  let wanted := "struct ClassifiedMatch with 5 elements"
  let matchId ← l.get? 0 (Node.readOption Node.readText)
  let taxonomyVersion ← l.get 1 wanted Node.readText
  let classifiedAt ← l.get 2 wanted Node.readInstant
  let players ← l.get 3 wanted readPlayers
  let summary ← l.get 4 wanted Summary.read
  l.finish .json 5
  pure ⟨matchId.getD none, taxonomyVersion, classifiedAt, players, summary⟩

def ofMembers (members : List (Node × Node)) (cut : Option Flaw) :
    Except Misread ClassifiedMatch := do
  let s ← foldMembers readMember cut members ⟨none, none, none, none, none⟩
  let taxonomyVersion ← required "taxonomyVersion" s.taxonomyVersion
  let classifiedAt ← required "classifiedAt" s.classifiedAt
  let players ← required "players" s.players
  let summary ← required "summary" s.summary
  pure ⟨s.matchId.getD none, taxonomyVersion, classifiedAt, players, summary⟩

def read : Reader ClassifiedMatch := readRecord "struct ClassifiedMatch" ofItems ofMembers

end ClassifiedMatch

end Allegiance
