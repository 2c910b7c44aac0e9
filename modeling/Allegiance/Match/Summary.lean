import Allegiance.Faction

namespace Allegiance

structure Summary where
  axis : UInt32
  allies : UInt32
  mixed : UInt32
  unknown : UInt32
  deriving DecidableEq

namespace Summary

def empty : Summary := ⟨0, 0, 0, 0⟩

def record (s : Summary) : Label → Summary
  | .axis => { s with axis := s.axis + 1 }
  | .allies => { s with allies := s.allies + 1 }
  | .mixed => { s with mixed := s.mixed + 1 }
  | .unknown => { s with unknown := s.unknown + 1 }

def ofLabels (ls : List Label) : Summary := ls.foldl record empty

def total (s : Summary) : UInt32 := s.axis + s.allies + s.mixed + s.unknown

def count (s : Summary) : Label → UInt32
  | .axis => s.axis
  | .allies => s.allies
  | .mixed => s.mixed
  | .unknown => s.unknown

end Summary

end Allegiance
