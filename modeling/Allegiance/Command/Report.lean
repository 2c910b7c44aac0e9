import Allegiance.Match.Classified
import Allegiance.Taxonomy.Basic
import Allegiance.Text.Utf8

namespace Allegiance.Command

def padRight (width : Nat) (s : String) : String :=
  s ++ String.ofList (List.replicate (width - s.length) ' ')

def padLeft (width n : Nat) : String :=
  let ds := Nat.toDigits 10 n
  String.ofList (List.replicate (width - ds.length) ' ' ++ ds)

def groupLine (g : WeaponGroup) : String :=
  "  " ++ padRight 16 g.nation ++ " " ++ padRight 7 g.faction.name ++
    " infantry " ++ padLeft 3 g.infantry.length ++ "  vehicles " ++ padLeft 3 g.vehicles.length ++
    "\n"

/-- Version and counts of a taxonomy, and a line for every group. -/
def describeText (t : Taxonomy) : String :=
  s!"Version: {t.version}\n" ++
    s!"Weapons: {t.size} (axis {t.count .axis}, allies {t.count .allies})\n" ++
    String.join (t.groups.map groupLine)

def checkText (t : Taxonomy) : String := s!"OK: {t.size} weapons, version {t.version}\n"

/-- The side, nation and kind of a weapon. -/
def lookupText (t : Taxonomy) (weapon : String) : String :=
  match t.lookup weapon with
  | some e => s!"{weapon}: {e.faction.name} ({e.nation}, {e.kind.title})\n"
  | none => s!"{weapon}: unrecognized\n"

def summaryText (m : ClassifiedMatch) : String :=
  let s := m.summary
  s!"\n=== Classification ===\nPlayers:  {s.total}\nAxis:     {s.axis}\nAllies:   {s.allies}\n" ++
    s!"Mixed:    {s.mixed}\nUnknown:  {s.unknown}\nTaxonomy: {m.taxonomyVersion}\n"

end Allegiance.Command
