import Allegiance.Classification.Walk
import Allegiance.Journal
import Allegiance.Match.Classified

namespace Allegiance

structure Classifier where
  taxonomy : Taxonomy
  tuning : Tuning

namespace Classifier

def label (c : Classifier) (r : KillRecord) : Label :=
  classify c.taxonomy c.tuning r.totalKills r.usage

def remarks (r : KillRecord) : List Event :=
  if r.isConsistent then [] else [.excessKills r.usage.total r.totalKills]

def classifyPlayer (c : Classifier) (p : PlayerStats) : ClassifiedPlayer := ⟨p, c.label p.record⟩

/-- Label every player of a match, in order, and count the labels. -/
def classifyMatch (c : Classifier) (now : Instant) (m : MatchStats) : ClassifiedMatch :=
  let players := m.players.map c.classifyPlayer
  { matchId := m.matchId
    taxonomyVersion := c.taxonomy.version
    classifiedAt := now
    players
    summary := .ofLabels (players.map ClassifiedPlayer.team) }

def matchRemarks (m : ClassifiedMatch) : List Event :=
  m.players.flatMap (fun p => remarks p.player.record) ++ [.classified m.summary]

end Classifier

end Allegiance
