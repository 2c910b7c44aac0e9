import Allegiance.Files.Path
import Allegiance.Http.Percent

namespace Allegiance.Http

/-- What can be asked for. A weapon is still as the address spells it. -/
inductive Endpoint
  | health
  | classify
  | taxonomy
  | weapon (spelling : String)
  | reload
  deriving DecidableEq

namespace Endpoint

/-- The name of a weapon is one piece of the path, and not empty. -/
def ofPath? (path : String) : Option Endpoint :=
  match (Path.pieces path.toList).map String.ofList with
  | ["", "api", "health"] => some health
  | ["", "api", "classify"] => some classify
  | ["", "api", "taxonomy"] => some taxonomy
  | ["", "api", "taxonomy", "reload"] => some reload
  | ["", "api", "taxonomy", "weapons", spelling] =>
    if spelling = "" then none else some (weapon spelling)
  | _ => none

def isPosted : Endpoint → Bool
  | classify | reload => true
  | health | taxonomy | weapon _ => false

def allowed (e : Endpoint) : String := if e.isPosted then "POST" else "GET,HEAD"

def allows (e : Endpoint) (method : String) : Bool :=
  if e.isPosted then method = "POST" else method = "GET" || method = "HEAD"

def decodeWeapon? (spelling : String) : Option String :=
  Utf8.decode? (Percent.decode (Utf8.encode spelling))

end Endpoint

end Allegiance.Http
