import Allegiance.Match.Summary
import Allegiance.Text.Quoted

namespace Allegiance

inductive Event
  | excessKills (weaponKills : UInt64) (totalKills : UInt32)
  | classified (summary : Summary)
  | indexedTaxonomy (weapons groups : Nat) (version : String)
  | loadedTaxonomy (version path : String) (weapons : Nat)
  | builtinTaxonomy (version : String) (weapons : Nat)
  | unparsedLine (line : Nat) (path : String)
  | readEntities (count : Nat) (path : String)
  | readPlayers (count : Nat) (path : String)
  | wroteEntities (count : Nat) (path : String)
  deriving DecidableEq

inductive Level
  | debug
  | info
  | warn
  deriving DecidableEq

def Level.name : Level → String
  | debug => "DEBUG"
  | info => "INFO"
  | warn => "WARN"

namespace Event

def level : Event → Level
  | excessKills .. | classified .. | indexedTaxonomy .. | readEntities .. | readPlayers .. => .debug
  | loadedTaxonomy .. | builtinTaxonomy .. | wroteEntities .. => .info
  | unparsedLine .. => .warn

def shownPath (p : String) : String := Text.quoted .path p

def message : Event → String
  | excessKills weapons total => s!"Weapon kills ({weapons}) exceed total kills ({total})"
  | classified s => s!"Classified {s.total} players (axis={s.axis}, allies={s.allies}, " ++
      s!"mixed={s.mixed}, unknown={s.unknown})"
  | indexedTaxonomy weapons groups version =>
    s!"Indexed {weapons} weapons from {groups} groups (taxonomy {version})"
  | loadedTaxonomy version p weapons =>
    s!"Loaded weapon taxonomy {version} from " ++ shownPath p ++ s!" ({weapons} weapons)"
  | builtinTaxonomy version weapons =>
    s!"Using built-in weapon taxonomy {version} ({weapons} weapons)"
  | unparsedLine line p => s!"Failed to parse line {line} in " ++ shownPath p
  | readEntities count p => s!"Read {count} entities from " ++ shownPath p
  | readPlayers count p => s!"Read {count} players from " ++ shownPath p
  | wroteEntities count p => s!"Wrote {count} entities to " ++ shownPath p

def line (e : Event) : String := s!"{e.level.name} {e.message}"

end Event

end Allegiance
