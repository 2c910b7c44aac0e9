import Allegiance.Classification.Tally
import Allegiance.Classification.Tuning
import Allegiance.Taxonomy.Basic
import Allegiance.Usage.Ranking

namespace Allegiance

/-- The first side to reach the threshold ends the walk. -/
def walk (side : String → Option Faction) (threshold : Binary64) :
    List (String × UInt32) → Tally → Label
  | [], tally => tally.fallback
  | (weapon, count) :: rest, tally =>
    let tally := tally.add (side weapon) count
    match tally.dominant threshold with
    | some f => f.label
    | none => walk side threshold rest tally

/-- Weapons are walked from the most used on. -/
def classify (t : Taxonomy) (tuning : Tuning) (total : UInt32) (usage : Usage) : Label :=
  if total = 0 ∧ tuning.zeroKills = .unknown then .unknown
  else walk t.factionOf (tuning.threshold total) usage.byCountDesc .empty

end Allegiance
