import Allegiance.Match.Classifier
import Allegiance.Match.Reading
import Allegiance.Match.Writing
import Allegiance.Storage.Format
import Allegiance.Storage.Lines

namespace Allegiance

open Document (Reader)

variable {m : Type → Type} [Monad m] [Host m]

abbrev StorageM (m : Type → Type) := ExceptT StorageFailure m

def readLinesFile {α : Type} (reader : Reader α) (path : String) : StorageM m (List α) := do
  if !(← (Host.pathExists path : m Bool)) then throw (.pathNotFound path)
  match (← (Host.readFile path : m _)) with
  | .error e => throw (.file e)
  | .ok content =>
    let harvest := Lines.read reader content
    for number in harvest.failures do
      (Host.note (.unparsedLine number path) : m Unit)
    (Host.note (.readEntities harvest.entities.length path) : m Unit)
    pure harvest.entities

def readDocumentFile {α : Type} (reader : Reader α) (path : String) : StorageM m α := do
  match (← (Host.readFile path : m _)) with
  | .error .isDirectory => throw (.unreadable .isDirectory)
  | .error e => throw (.file e)
  | .ok content =>
    match Json.read reader content with
    | .ok x => pure x
    | .error cause => throw (.misread cause)

/-- Lines tell no name of the match, so the name of the file is taken. -/
def readMatch (path : String) : StorageM m MatchStats := do
  let format ← (FileFormat.ofPath path : Except _ _)
  if !(← (Host.pathExists path : m Bool)) then throw (.pathNotFound path)
  let stats ← match format with
    | .document => readDocumentFile MatchStats.read path
    | .lines => do
      let players ← readLinesFile (PlayerStats.read playerRoom) path
      pure ⟨Path.stem? path, players⟩
  (Host.note (.readPlayers stats.players.length path) : m Unit)
  pure stats

def ClassifiedMatch.written (format : FileFormat) (r : ClassifiedMatch) : Bytes :=
  match format with
  | .document => r.toJson.pretty 0 ++ [Lines.lineFeed]
  | .lines => Lines.write (r.players.map ClassifiedPlayer.toJson)

/-- The directory is made if need be. -/
def replaceFile (path : String) (content : Bytes) : StorageM m Unit := do
  if let some parent := Path.parent? path then
    if let .error e := (← (Host.makeDirectories parent : m _)) then throw (.file e)
  if let .error e := (← (Host.writeFile path content : m _)) then throw (.file e)

/-- Write one document a line, and tell how many. -/
def writeLinesFile (path : String) (values : List Json.Value) : StorageM m Nat := do
  replaceFile path (Lines.write values)
  (Host.note (.wroteEntities values.length path) : m Unit)
  pure values.length

def writeClassifiedFile (path : String) (r : ClassifiedMatch) : StorageM m Unit := do
  match (← (FileFormat.ofPath path : Except _ _)) with
  | .lines => do
    let _ ← writeLinesFile path (r.players.map ClassifiedPlayer.toJson)
  | .document => replaceFile path (r.written .document)

def Classifier.classifyNow (c : Classifier) (stats : MatchStats) : m ClassifiedMatch := do
  let result := c.classifyMatch (← Host.now) stats
  for event in Classifier.matchRemarks result do
    Host.note event
  pure result

end Allegiance
