import Allegiance.Classification.Tuning
import Allegiance.Document.Reading
import Allegiance.Taxonomy.Group

namespace Allegiance

open Document

def Faction.read (d : Dialect) : Reader Faction :=
  Node.readVariant d ([Faction.axis, .allies].map (fun f => (f.name, f)))

def Label.read (d : Dialect) : Reader Label :=
  Node.readVariant d (Label.all.map (fun l => (l.name, l)))

def WeaponKind.read (d : Dialect) : Reader WeaponKind :=
  Node.readVariant d ([WeaponKind.infantry, .vehicle].map (fun k => (k.name, k)))

def ZeroKillPolicy.read (d : Dialect) : Reader ZeroKillPolicy :=
  Node.readVariant d ([ZeroKillPolicy.unknown, .legacy].map (fun p => (p.name, p)))

end Allegiance
