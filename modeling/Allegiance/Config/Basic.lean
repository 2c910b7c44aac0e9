import Allegiance.Binary64.Shortest
import Allegiance.Classification.Tuning
import Allegiance.Text.Quoted
import Allegiance.Text.Utf8

namespace Allegiance

structure ServerConfig where
  host : String
  port : UInt16
  corsOrigin : String
  deriving DecidableEq

def ServerConfig.standard : ServerConfig := ⟨"127.0.0.1", 8080, "*"⟩

/-- Without a taxonomy file the built-in table is used. -/
structure Config where
  logLevel : String
  taxonomyPath : Option String
  classifier : Tuning
  server : ServerConfig
  deriving DecidableEq

inductive ConfigFlaw
  | ratio (x : Binary64)
  | port
  | origin (s : String)
  deriving DecidableEq

namespace ConfigFlaw

def message (flaw : ConfigFlaw) : String :=
  "Invalid configuration: " ++
    match flaw with
    | ratio x => "Classifier threshold_ratio must be in (0, 1], got " ++ x.toText .plain
    | port => "Server port must be greater than 0"
    | origin s => "Server cors_origin " ++ Text.quoted .text s ++ " is not a valid header value"

end ConfigFlaw

def isHeaderByte (b : UInt8) : Bool := b = 9 || (32 ≤ b && b ≠ 127)

def isHeaderValue (s : String) : Bool := (Utf8.encode s).all isHeaderByte

namespace Config

def standard : Config := ⟨"info", none, .standard, .standard⟩

def validate (c : Config) : Except ConfigFlaw Unit :=
  if !(Binary64.lt 0 c.classifier.thresholdRatio && c.classifier.thresholdRatio.le 1) then
    .error (.ratio c.classifier.thresholdRatio)
  else if c.server.port = 0 then .error .port
  else if c.server.corsOrigin ≠ "*" ∧ !isHeaderValue c.server.corsOrigin then
    .error (.origin c.server.corsOrigin)
  else .ok ()

end Config

end Allegiance
