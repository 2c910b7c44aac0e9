import Allegiance.Host.Basic
import Allegiance.Taxonomy.Reading

namespace Allegiance

inductive LoadFailure
  | file (e : FileError)
  | taxonomy (cause : TaxonomyFailure)
  deriving DecidableEq

def LoadFailure.message : LoadFailure → String
  | file e => "Failed to read taxonomy file: " ++ e.message
  | taxonomy (.misread cause) => "Failed to parse taxonomy: " ++ cause.message .toml
  | taxonomy (.flawed flaw) => flaw.message

namespace Taxonomy

def remark (t : Taxonomy) : Event := .indexedTaxonomy t.size t.groups.length t.version

variable {m : Type → Type} [Monad m] [Host m]

def noted (made : Except TaxonomyFailure Taxonomy) : ExceptT LoadFailure m Taxonomy := do
  match made with
  | .error cause => throw (.taxonomy cause)
  | .ok t =>
    (Host.note t.remark : m Unit)
    pure t

def ofFile (path : String) : ExceptT LoadFailure m Taxonomy := do
  match (← (readTextFile path : m _)) with
  | .error e => throw (.file e)
  | .ok text =>
    let t ← noted (ofToml text)
    (Host.note (.loadedTaxonomy t.version path t.size) : m Unit)
    pure t

/-- The taxonomy of a file, or the built-in one where no file is named. -/
def load (path : Option String) : ExceptT LoadFailure m Taxonomy := do
  match path with
  | some path => ofFile path
  | none =>
    let t ← noted (builtin.mapError .flawed)
    (Host.note (.builtinTaxonomy t.version t.size) : m Unit)
    pure t

end Taxonomy

end Allegiance
