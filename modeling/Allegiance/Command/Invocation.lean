import Allegiance.Binary64.Decimal
import Allegiance.Command.Words

namespace Allegiance.Command

inductive Action
  | classify (input : String) (output taxonomy : Option String) (legacyZeroKills : Bool)
  | serve (host : Option String) (port : Option UInt16)
  | describe (path : Option String)
  | check (path : String)
  | lookup (weapon : String) (path : Option String)
  deriving DecidableEq

structure Invocation where
  config : String
  logLevel : Option String
  jsonLogs : Bool
  action : Action
  deriving DecidableEq

def anyText (_ : String) : Bool := true

def isPath (s : String) : Bool := s ≠ ""

/-- A port in decimal, perhaps after a sign. -/
def port? (s : String) : Option UInt16 :=
  let number (negative : Bool) (ds : List Char) : Option UInt16 :=
    let n := Binary64.digitsValue ds
    if Binary64.isDigits ds ∧ n < 65536 ∧ (negative → n = 0) then some n.toUInt16 else none
  match s.toList with
  | '+' :: ds => number false ds
  | '-' :: ds => number true ds
  | ds => number false ds

namespace Form

def path : String × Shape := ("path", .value isPath)

def classify : Form :=
  ⟨false,
    [("input", .value isPath), ("output", .value isPath), ("taxonomy", .value isPath),
     ("legacy-zero-kills", .flag)],
    [], []⟩

def serve : Form :=
  ⟨false, [("host", .value anyText), ("port", .value (fun s => (port? s).isSome))], [], []⟩

def taxonomy : Form :=
  ⟨false, [], [],
    [("show", ⟨false, [path], [], []⟩),
     ("check", ⟨false, [], [isPath], []⟩),
     ("lookup", ⟨false, [path], [anyText], []⟩)]⟩

def program : Form :=
  ⟨true,
    [("config", .value isPath), ("log-level", .value anyText), ("json-logs", .flag)], [],
    [("classify", classify), ("serve", serve), ("taxonomy", taxonomy)]⟩

end Form

/-- The action that was asked for, if nothing it needs is missing. -/
def Action.ofGiven (g : Given) : Except Misuse Action :=
  match g.path, g.operands with
  | ["classify"], _ =>
    match g.value? "input" with
    | some input =>
      .ok (.classify input (g.value? "output") (g.value? "taxonomy")
        (g.hasFlag "legacy-zero-kills"))
    | none => .error (.missing "--input")
  | ["serve"], _ => .ok (.serve (g.value? "host") ((g.value? "port").bind port?))
  | ["taxonomy", "show"], _ => .ok (.describe (g.value? "path"))
  | ["taxonomy", "check"], [path] => .ok (.check path)
  | ["taxonomy", "lookup"], [weapon] => .ok (.lookup weapon (g.value? "path"))
  | ["taxonomy", "check"], _ => .error (.missing "a path")
  | ["taxonomy", "lookup"], _ => .error (.missing "a weapon")
  | _, _ => .error (.missing "a command")

def Invocation.ofGiven (g : Given) : Except Misuse Invocation := do
  pure
    { config := (g.value? "config").getD "./config.toml"
      logLevel := g.value? "log-level"
      jsonLogs := g.hasFlag "json-logs"
      action := ← Action.ofGiven g }

end Allegiance.Command
