import Std.Data.TreeMap
import Allegiance.Taxonomy.Group

namespace Allegiance

inductive TaxonomyFlaw
  | blankVersion
  | blankWeapon (nation : String)
  | bothFactions (weapon : String) (first second : Faction)
  | noWeapons
  deriving DecidableEq

namespace TaxonomyFlaw

def message : TaxonomyFlaw → String
  | blankVersion => "Taxonomy version must not be empty"
  | blankWeapon nation => s!"Group '{nation}' contains an empty weapon identifier"
  | bothFactions weapon first second =>
    "Weapon '" ++ weapon ++ "' is listed as " ++ first.name ++ " and as " ++ second.name
  | noWeapons => "Taxonomy contains no weapons"

def swap : TaxonomyFlaw → TaxonomyFlaw
  | bothFactions weapon first second => bothFactions weapon first.opponent second.opponent
  | other => other

end TaxonomyFlaw

abbrev WeaponIndex := Std.TreeMap String WeaponEntry

namespace WeaponIndex

/-- Take up one more mention. The first mention of a weapon stays; a later one may only repeat its
faction. -/
def add (index : WeaponIndex) (l : Listing) : Except TaxonomyFlaw WeaponIndex :=
  if Text.isBlank l.weapon then .error (.blankWeapon l.entry.nation)
  else
    match index[l.weapon]? with
    | none => .ok (index.insert l.weapon l.entry)
    | some known =>
      if known.faction = l.entry.faction then .ok index
      else .error (.bothFactions l.weapon known.faction l.entry.faction)

def ofListings (ls : List Listing) : Except TaxonomyFlaw WeaponIndex := ls.foldlM add ∅

end WeaponIndex

/-- A versioned table of weapons. Weapons are told apart by every character, case included. -/
structure Taxonomy where
  version : String
  groups : List WeaponGroup
  index : WeaponIndex

namespace Taxonomy

def ofGroups (version : String) (groups : List WeaponGroup) : Except TaxonomyFlaw Taxonomy :=
  if Text.isBlank version then .error .blankVersion
  else do
    let index ← WeaponIndex.ofListings (listings groups)
    if index.isEmpty then .error .noWeapons else .ok ⟨version, groups, index⟩

def lookup (t : Taxonomy) (weapon : String) : Option WeaponEntry := t.index[weapon]?

def factionOf (t : Taxonomy) (weapon : String) : Option Faction :=
  (t.lookup weapon).map WeaponEntry.faction

def size (t : Taxonomy) : Nat := t.index.size

def count (t : Taxonomy) (f : Faction) : Nat :=
  t.index.values.countP (fun e => e.faction = f)

end Taxonomy

end Allegiance
