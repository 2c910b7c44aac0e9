import Allegiance.Instant.Basic
import Allegiance.Match.Stats
import Allegiance.Match.Summary

namespace Allegiance

structure ClassifiedPlayer where
  player : PlayerStats
  team : Label
  deriving BEq

structure ClassifiedMatch where
  matchId : Option String
  taxonomyVersion : String
  classifiedAt : Instant
  players : List ClassifiedPlayer
  summary : Summary

end Allegiance
