import Allegiance.Document.Names
import Allegiance.Taxonomy.Builtin
import Allegiance.Toml.Document

namespace Allegiance

open Document

namespace WeaponGroup

structure Slots where
  nation : Option String
  faction : Option Faction
  infantry : Option (List String)
  vehicles : Option (List String)

def readWeapons : Reader (List String) := Node.readList Node.readText

def readMember (d : Dialect) (s : Slots) (name : String) (value : Node) : Except Misread Slots :=
  if name = "nation" then do pure { s with nation := ← once name s.nation Node.readText value }
  else if name = "faction" then do
    pure { s with faction := ← once name s.faction (Faction.read d) value }
  else if name = "infantry" then do
    pure { s with infantry := ← once name s.infantry readWeapons value }
  else if name = "vehicles" then do
    pure { s with vehicles := ← once name s.vehicles readWeapons value }
  else do value.passedOver.asRead; pure s

def ofItems (d : Dialect) (l : Items) : Except Misread WeaponGroup := do
  let wanted := "struct WeaponGroup with 4 elements"
  let nation ← l.get 0 wanted Node.readText
  let faction ← l.get 1 wanted (Faction.read d)
  let infantry ← l.get? 2 readWeapons
  let vehicles ← l.get? 3 readWeapons
  l.finish d 4
  pure ⟨nation, faction, infantry.getD [], vehicles.getD []⟩

def ofMembers (d : Dialect) (members : List (Node × Node)) (cut : Option Flaw) :
    Except Misread WeaponGroup := do
  let s ← foldMembers (readMember d) cut members ⟨none, none, none, none⟩
  let nation ← required "nation" s.nation
  let faction ← required "faction" s.faction
  pure ⟨nation, faction, s.infantry.getD [], s.vehicles.getD []⟩

def read (d : Dialect) : Reader WeaponGroup :=
  readRecord "struct WeaponGroup" (ofItems d) (ofMembers d)

end WeaponGroup

/-- What a taxonomy file says, before it is checked. -/
structure TaxonomyFile where
  version : String
  groups : List WeaponGroup

namespace TaxonomyFile

structure Slots where
  version : Option String
  groups : Option (List WeaponGroup)

def readMember (s : Slots) (name : String) (value : Node) : Except Misread Slots :=
  if name = "version" then do pure { s with version := ← once name s.version Node.readText value }
  else if name = "groups" then do
    pure { s with groups := ← once name s.groups (Node.readList (WeaponGroup.read .toml)) value }
  else do value.passedOver.asRead; pure s

def read : Reader TaxonomyFile
  | .map members cut => do
    let s ← foldMembers readMember cut members ⟨none, none⟩
    pure ⟨← required "version" s.version, s.groups.getD []⟩
  | n => n.unexpected "struct TaxonomyFile"

end TaxonomyFile

inductive TaxonomyFailure
  | misread (cause : Misread)
  | flawed (flaw : TaxonomyFlaw)
  deriving DecidableEq

namespace Taxonomy

def ofToml (s : String) : Except TaxonomyFailure Taxonomy :=
  match Toml.read TaxonomyFile.read s with
  | .error e => .error (.misread e)
  | .ok file => (ofGroups file.version file.groups).mapError .flawed

end Taxonomy

end Allegiance
