import Allegiance.Instant.Basic
import Allegiance.Journal
import Allegiance.Text.Utf8

namespace Allegiance

inductive FileError
  | notFound
  | occupied
  | notDirectory
  | isDirectory
  | nameTooLong
  | nulInName
  | notText
  | other (description : String)
  deriving DecidableEq

namespace FileError

def message : FileError → String
  | notFound => "No such file or directory (os error 2)"
  | occupied => "File exists (os error 17)"
  | notDirectory => "Not a directory (os error 20)"
  | isDirectory => "Is a directory (os error 21)"
  | nameTooLong => "File name too long (os error 36)"
  | nulInName => "file name contained an unexpected NUL byte"
  | notText => "stream did not contain valid UTF-8"
  | other description => description

end FileError

class Host (m : Type → Type) where
  pathExists : String → m Bool
  readFile : String → m (Except FileError Bytes)
  /-- The file is made if need be. -/
  writeFile : String → Bytes → m (Except FileError Unit)
  /-- With the directories it lies in. -/
  makeDirectories : String → m (Except FileError Unit)
  note : Event → m Unit
  now : m Instant

def readTextFile {m : Type → Type} [Monad m] [Host m] (path : String) :
    m (Except FileError String) := do
  match (← Host.readFile path) with
  | .error e => pure (.error e)
  | .ok content =>
    match Utf8.decode? content with
    | some s => pure (.ok s)
    | none => pure (.error .notText)

end Allegiance
