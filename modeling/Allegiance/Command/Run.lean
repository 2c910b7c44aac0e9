import Allegiance.Command.Invocation
import Allegiance.Command.Report
import Allegiance.Config.Files
import Allegiance.Http.Server
import Allegiance.Storage.Files
import Allegiance.Taxonomy.Files

namespace Allegiance.Command

inductive Failure
  | config (path : String) (cause : ConfigFailure)
  | refusedConfig (flaw : ConfigFlaw)
  | taxonomy (cause : LoadFailure)
  | classifierTaxonomy (cause : LoadFailure)
  | checkedTaxonomy (path : String) (cause : LoadFailure)
  | statistics (path : String) (cause : StorageFailure)
  | format (cause : StorageFailure)
  | result (path : String) (cause : StorageFailure)
  | address (address : String)
  deriving DecidableEq

/-- What failed, without the cause where there is more to say. -/
def Failure.message : Failure → String
  | config path _ => "Failed to load config from " ++ Text.quoted .path path
  | refusedConfig flaw => flaw.message
  | taxonomy cause => cause.message
  | classifierTaxonomy _ => "Failed to load weapon taxonomy"
  | checkedTaxonomy path _ => "Invalid taxonomy " ++ Text.quoted .path path
  | statistics path _ => "Failed to read statistics from " ++ Text.quoted .path path
  | format cause => cause.message
  | result path _ => "Failed to write " ++ Text.quoted .path path
  | address a => "Failed to bind " ++ a

/-- Only work that is done has output; its notice goes beside it. -/
inductive Outcome
  | done (output : Bytes) (notice : String)
  | failed (f : Failure)
  | misused (why : Misuse)

namespace Outcome

def printed (s : String) : Outcome := .done (Utf8.encode s) ""

def exitCode : Outcome → Nat
  | done .. => 0
  | failed _ => 1
  | misused _ => 2

def output : Outcome → Bytes
  | done output _ => output
  | failed _ | misused _ => []

def told : Outcome → String
  | done _ notice => notice
  | failed f => s!"Error: {f.message}\n"
  | misused why => s!"error: {why.message}\n"

end Outcome

def programName : String := "team-classifier"

def versionText : String := s!"{programName} {Http.programVersion}\n"

def usageText : String :=
  s!"Usage: {programName} [--config PATH] [--log-level LEVEL] [--json-logs] COMMAND\n" ++
    "Commands: classify, serve, taxonomy show, taxonomy check, taxonomy lookup\n"

variable {m : Type → Type} [Monad m] [Host m]

abbrev CommandM (m : Type → Type) := ExceptT Failure m

def orFail {ε α : Type} (wrap : ε → Failure) (work : ExceptT ε m α) : CommandM m α := do
  match (← (work.run : m (Except ε α))) with
  | .ok x => pure x
  | .error e => throw (wrap e)

/-- Label the players of a file. The result is written where `output` says, or printed in the format
of the input. -/
def classifyFile (config : Config) (input : String) (output taxonomy : Option String)
    (legacyZeroKills : Bool) : CommandM m Outcome := do
  let t ← orFail Failure.classifierTaxonomy (Taxonomy.load (taxonomy <|> config.taxonomyPath))
  let tuning :=
    if legacyZeroKills then { config.classifier with zeroKills := .legacy } else config.classifier
  let stats ← orFail (Failure.statistics input) (readMatch input)
  let result ← ((Classifier.mk t tuning).classifyNow stats : m ClassifiedMatch)
  match output with
  | some path => do
    orFail (Failure.result path) (writeClassifiedFile path result)
    pure (.done [] (summaryText result))
  | none => do
    let format ← orFail Failure.format (m := m) (FileFormat.ofPath input : Except _ _)
    pure (.done (result.written format) (summaryText result))

/-- Make a server ready. Requests are answered in process; there is no network to listen on. -/
def startServer (config : Config) (host : Option String) (port : Option UInt16) :
    CommandM m Outcome := do
  let server : ServerConfig :=
    { config.server with
      host := host.getD config.server.host, port := port.getD config.server.port }
  let config := { config with server }
  if let .error flaw := config.validate then throw (.refusedConfig flaw)
  let _ ← orFail Failure.classifierTaxonomy (Http.Server.start (m := m) config)
  throw (.address s!"{server.host}:{server.port}")

def act (config : Config) : Action → CommandM m Outcome
  | .classify input output taxonomy legacyZeroKills =>
    classifyFile config input output taxonomy legacyZeroKills
  | .serve host port => startServer config host port
  | .describe path => do
    let t ← orFail Failure.taxonomy (Taxonomy.load (path <|> config.taxonomyPath))
    pure (.printed (describeText t))
  | .check path => do
    let t ← orFail (Failure.checkedTaxonomy path) (Taxonomy.ofFile path)
    pure (.printed (checkText t))
  | .lookup weapon path => do
    let t ← orFail Failure.taxonomy (Taxonomy.load (path <|> config.taxonomyPath))
    pure (.printed (lookupText t weapon))

def Invocation.run (i : Invocation) : CommandM m Outcome := do
  let config ← orFail (Failure.config i.config) (Config.load i.config)
  act { config with logLevel := i.logLevel.getD config.logLevel } i.action

def run (words : List String) : m Outcome := do
  match scan .program .empty false words with
  | .error why => pure (.misused why)
  | .ok .version => pure (.printed versionText)
  | .ok .help => pure (.printed usageText)
  | .ok (.work g) =>
    match Invocation.ofGiven g with
    | .error why => pure (.misused why)
    | .ok invocation => do
      match (← invocation.run.run) with
      | .ok outcome => pure outcome
      | .error f => pure (.failed f)

end Allegiance.Command
