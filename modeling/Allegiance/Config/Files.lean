import Allegiance.Config.Reading
import Allegiance.Files.Path
import Allegiance.Host.Basic
import Allegiance.Toml.Document

namespace Allegiance

open Document (Misread)

inductive ConfigFailure
  | file (e : FileError)
  | misread (cause : Misread)
  | flawed (flaw : ConfigFlaw)
  deriving DecidableEq

def ConfigFailure.message : ConfigFailure → String
  | file e => "Failed to read config file: " ++ e.message
  | misread cause => "Failed to parse config: " ++ cause.message .toml
  | flawed flaw => flaw.message

namespace Config

/-- Take a relative path of the taxonomy from the directory that the settings lie in. -/
def relativeTo (path : String) (c : Config) : Config :=
  match c.taxonomyPath, Path.parent? path with
  | some taxonomy, some directory =>
    if Path.isAbsolute taxonomy then c
    else { c with taxonomyPath := some (Path.join directory taxonomy) }
  | _, _ => c

def ofFileText (path text : String) : Except ConfigFailure Config := do
  let c ← (Toml.read (Config.read .toml) text).mapError ConfigFailure.misread
  let c := c.relativeTo path
  c.validate.mapError ConfigFailure.flawed
  pure c

variable {m : Type → Type} [Monad m] [Host m]

def ofFile (path : String) : ExceptT ConfigFailure m Config := do
  match (← (readTextFile path : m _)) with
  | .error e => throw (.file e)
  | .ok text => (ofFileText path text : Except _ _)

/-- Where there is no file the settings are the standard ones. -/
def load (path : String) : ExceptT ConfigFailure m Config := do
  if (← (Host.pathExists path : m Bool)) then ofFile path else pure standard

end Config

end Allegiance
