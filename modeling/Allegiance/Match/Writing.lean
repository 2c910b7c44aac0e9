import Allegiance.Json.Value
import Allegiance.Match.Classified
import Allegiance.Taxonomy.Group

namespace Allegiance

open Json (Value)

def Usage.toJson (u : Usage) : Value :=
  .object (u.toList.map (fun e => (e.1, .ofUInt32 e.2)))

namespace KillRecord

def members (r : KillRecord) : List (String × Option Value) :=
  [("totalKills", some (.ofUInt32 r.totalKills)), ("weaponUsage", some r.usage.toJson)]

def toJson (r : KillRecord) : Value := .record r.members

end KillRecord

namespace PlayerStats

def members (p : PlayerStats) : List (String × Option Value) :=
  [("playerId", some (.text p.id)), ("playerName", p.name.map .text)] ++ p.record.members

def toJson (p : PlayerStats) : Value := .record p.members

end PlayerStats

def ClassifiedPlayer.toJson (p : ClassifiedPlayer) : Value :=
  .record (p.player.members ++ [("team", some (.text p.team.name))])

def Summary.toJson (s : Summary) : Value :=
  .record (Label.all.map (fun l => (l.name, some (.ofUInt32 (s.count l)))))

def MatchStats.toJson (m : MatchStats) : Value :=
  .record
    [("matchId", m.matchId.map .text),
     ("players", some (.list (m.players.map PlayerStats.toJson)))]

def ClassifiedMatch.toJson (m : ClassifiedMatch) : Value :=
  .record
    [("matchId", m.matchId.map .text),
     ("taxonomyVersion", some (.text m.taxonomyVersion)),
     ("classifiedAt", some (.text m.classifiedAt.toText)),
     ("players", some (.list (m.players.map ClassifiedPlayer.toJson))),
     ("summary", some m.summary.toJson)]

def WeaponEntry.toJson (e : WeaponEntry) : Value :=
  .object
    [("faction", .text e.faction.name), ("nation", .text e.nation), ("kind", .text e.kind.name)]

def WeaponGroup.toJson (g : WeaponGroup) : Value :=
  .object
    [("nation", .text g.nation),
     ("faction", .text g.faction.name),
     ("infantry", .list (g.infantry.map .text)),
     ("vehicles", .list (g.vehicles.map .text))]

end Allegiance
