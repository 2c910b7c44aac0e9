import Allegiance.Document.Misfit
import Allegiance.Files.Path
import Allegiance.Host.Basic

namespace Allegiance

inductive StorageFailure
  | file (e : FileError)
  | unreadable (e : FileError)
  | misread (cause : Document.Misread)
  | pathNotFound (path : String)
  | unsupportedFormat (path : String)
  deriving DecidableEq

namespace StorageFailure

def message : StorageFailure → String
  | file e => "IO error: " ++ e.message
  | unreadable e => "JSON serialization error: " ++ e.message
  | misread cause => "JSON serialization error: " ++ cause.message .json
  | pathNotFound path => "Path not found: " ++ path
  | unsupportedFormat path =>
    "Unsupported file format: " ++ path ++ " (expected .json or .jsonl)"

end StorageFailure

/-- One document for a whole match, or one line for every player. -/
inductive FileFormat
  | document
  | lines
  deriving DecidableEq

namespace FileFormat

/-- Endings have no case. -/
def ofExtension? (ending : String) : Option FileFormat :=
  let ending := String.ofList (ending.toList.map Char.toLower)
  if ending = "json" then some document
  else if ending = "jsonl" ∨ ending = "ndjson" then some lines
  else none

def ofPath (path : String) : Except StorageFailure FileFormat :=
  match (Path.extension? path).bind ofExtension? with
  | some f => .ok f
  | none => .error (.unsupportedFormat path)

end FileFormat

end Allegiance
