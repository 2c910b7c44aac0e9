import Allegiance.Binary64.Rounding
import Allegiance.Faction

namespace Allegiance

structure Tally where
  axis : UInt64
  allies : UInt64
  deriving DecidableEq

namespace Tally

def empty : Tally := ⟨0, 0⟩

def kills (t : Tally) : Faction → UInt64
  | .axis => t.axis
  | .allies => t.allies

def add (t : Tally) (side : Option Faction) (count : UInt32) : Tally :=
  match side with
  | some .axis => { t with axis := t.axis + count.toUInt64 }
  | some .allies => { t with allies := t.allies + count.toUInt64 }
  | none => t

def reaches (t : Tally) (f : Faction) (threshold : Binary64) : Bool :=
  threshold.le (.ofNat (t.kills f).toNat)

/-- Axis is asked first. -/
def dominant (t : Tally) (threshold : Binary64) : Option Faction :=
  if t.reaches .axis threshold then some .axis
  else if t.reaches .allies threshold then some .allies
  else none

def fallback (t : Tally) : Label :=
  if 0 < t.axis ∧ 0 < t.allies then .mixed else .unknown

end Tally

end Allegiance
