import Allegiance.Usage.Basic

namespace Allegiance

/-- What a player did in one match: all kills, and those whose weapon is known. -/
structure KillRecord where
  totalKills : UInt32
  usage : Usage
  deriving BEq

namespace KillRecord

def empty : KillRecord := ⟨0, .empty⟩

instance : Inhabited KillRecord := ⟨empty⟩

def isConsistent (r : KillRecord) : Bool := r.usage.total ≤ r.totalKills.toUInt64

end KillRecord

structure PlayerStats where
  id : String
  name : Option String
  record : KillRecord
  deriving BEq

structure MatchStats where
  matchId : Option String
  players : List PlayerStats

end Allegiance
