import Allegiance.Faction
import Allegiance.Text.Blank

namespace Allegiance

inductive WeaponKind
  | infantry
  | vehicle
  deriving DecidableEq, Repr

namespace WeaponKind

def name : WeaponKind → String
  | infantry => "infantry"
  | vehicle => "vehicle"

def title : WeaponKind → String
  | infantry => "Infantry"
  | vehicle => "Vehicle"

end WeaponKind

structure WeaponGroup where
  nation : String
  faction : Faction
  infantry : List String
  vehicles : List String
  deriving DecidableEq

structure WeaponEntry where
  faction : Faction
  nation : String
  kind : WeaponKind
  deriving DecidableEq, Repr

/-- One mention of a weapon in the groups. -/
structure Listing where
  weapon : String
  entry : WeaponEntry
  deriving DecidableEq

namespace WeaponGroup

/-- The mentions of a group in reading order, infantry before vehicles. -/
def listings (g : WeaponGroup) : List Listing :=
  g.infantry.map (fun w => ⟨w, ⟨g.faction, g.nation, .infantry⟩⟩) ++
    g.vehicles.map (fun w => ⟨w, ⟨g.faction, g.nation, .vehicle⟩⟩)

def swap (g : WeaponGroup) : WeaponGroup := { g with faction := g.faction.opponent }

end WeaponGroup

def listings (groups : List WeaponGroup) : List Listing := groups.flatMap WeaponGroup.listings

end Allegiance
