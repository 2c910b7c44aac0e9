import Std.Time.DateTime.Timestamp
import Allegiance.Command.Run

namespace Allegiance

def FileError.ofSystem : IO.Error → FileError
  | .noFileOrDirectory .. | .noSuchThing .. => .notFound
  | .alreadyExists .. => .occupied
  | e => .other (toString e)

def attempt {α : Type} (work : IO α) : IO (Except FileError α) := do
  match (← work.toBaseIO) with
  | .ok x => pure (.ok x)
  | .error e => pure (.error (.ofSystem e))

/-- Files, clock and error output of the system. Details are noted for no one. -/
instance : Host IO where
  pathExists path := do pure (← attempt (IO.FS.realPath path)).isOk
  readFile path := attempt do pure (← IO.FS.readBinFile path).data.toList
  writeFile path content := attempt (IO.FS.writeBinFile path ⟨content.toArray⟩)
  makeDirectories path := attempt (IO.FS.createDirAll path)
  note event := if event.level = .debug then pure () else IO.eprintln event.line
  now := do
    let n := (← Std.Time.Timestamp.now).toNanosecondsSinceUnixEpoch.val
    match Instant.ofNumber? n with
    | some t => pure t
    | none => throw (.userError "the clock shows no date of the calendar")

end Allegiance

open Allegiance in
def main (words : List String) : IO UInt32 := do
  let outcome ← (Command.run words : IO Command.Outcome)
  (← IO.getStdout).write ⟨outcome.output.toArray⟩
  IO.eprint outcome.told
  pure outcome.exitCode.toUInt32
