import Allegiance.Config.Basic
import Allegiance.Document.Names
import Allegiance.Json.Value

namespace Allegiance

open Document
open Json (Value)

namespace Tuning

structure Slots where
  ratio : Option Binary64
  zeroKills : Option ZeroKillPolicy

def Slots.finish (s : Slots) : Tuning := ⟨s.ratio.getD defaultRatio, s.zeroKills.getD .unknown⟩

def readMember (d : Dialect) (s : Slots) (name : String) (value : Node) : Except Misread Slots :=
  if name = "threshold_ratio" then do
    pure { s with ratio := ← once name s.ratio Node.readReal value }
  else if name = "zero_kills" then do
    pure { s with zeroKills := ← once name s.zeroKills (ZeroKillPolicy.read d) value }
  else do value.passedOver.asRead; pure s

def read (d : Dialect) : Reader Tuning :=
  readRecord "struct ClassifierConfig"
    (fun l => do
      let ratio ← l.get? 0 Node.readReal
      let zeroKills ← l.get? 1 (ZeroKillPolicy.read d)
      l.finish d 2
      pure (Slots.finish ⟨ratio, zeroKills⟩))
    (fun members cut => do
      pure (← foldMembers (readMember d) cut members ⟨none, none⟩).finish)

def toJson (t : Tuning) : Value :=
  .object [("threshold_ratio", .real t.thresholdRatio), ("zero_kills", .text t.zeroKills.name)]

end Tuning

namespace ServerConfig

structure Slots where
  host : Option String
  port : Option UInt16
  corsOrigin : Option String

def Slots.finish (s : Slots) : ServerConfig :=
  ⟨s.host.getD standard.host, s.port.getD standard.port, s.corsOrigin.getD standard.corsOrigin⟩

def readMember (s : Slots) (name : String) (value : Node) : Except Misread Slots :=
  if name = "host" then do pure { s with host := ← once name s.host Node.readText value }
  else if name = "port" then do pure { s with port := ← once name s.port Node.readUInt16 value }
  else if name = "cors_origin" then do
    pure { s with corsOrigin := ← once name s.corsOrigin Node.readText value }
  else do value.passedOver.asRead; pure s

def read (d : Dialect) : Reader ServerConfig :=
  readRecord "struct ServerConfig"
    (fun l => do
      let host ← l.get? 0 Node.readText
      let port ← l.get? 1 Node.readUInt16
      let corsOrigin ← l.get? 2 Node.readText
      l.finish d 3
      pure (Slots.finish ⟨host, port, corsOrigin⟩))
    (fun members cut => do
      pure (← foldMembers readMember cut members ⟨none, none, none⟩).finish)

def toJson (s : ServerConfig) : Value :=
  .object
    [("host", .text s.host), ("port", .integer s.port.toNat), ("cors_origin", .text s.corsOrigin)]

end ServerConfig

namespace Config

structure Slots where
  logLevel : Option String
  taxonomyPath : Option (Option String)
  classifier : Option Tuning
  server : Option ServerConfig

def Slots.finish (s : Slots) : Config :=
  { logLevel := s.logLevel.getD standard.logLevel
    taxonomyPath := s.taxonomyPath.getD none
    classifier := s.classifier.getD .standard
    server := s.server.getD .standard }

def readPath : Reader (Option String) := Node.readOption (Node.readTextAs "path string")

def readMember (d : Dialect) (s : Slots) (name : String) (value : Node) : Except Misread Slots :=
  if name = "log_level" then do
    pure { s with logLevel := ← once name s.logLevel Node.readText value }
  else if name = "taxonomy_path" then do
    pure { s with taxonomyPath := ← once name s.taxonomyPath readPath value }
  else if name = "classifier" then do
    pure { s with classifier := ← once name s.classifier (Tuning.read d) value }
  else if name = "server" then do
    pure { s with server := ← once name s.server (ServerConfig.read d) value }
  else do value.passedOver.asRead; pure s

def read (d : Dialect) : Reader Config :=
  readRecord "struct AppConfig"
    (fun l => do
      let logLevel ← l.get? 0 Node.readText
      let taxonomyPath ← l.get? 1 readPath
      let classifier ← l.get? 2 (Tuning.read d)
      let server ← l.get? 3 (ServerConfig.read d)
      l.finish d 4
      pure (Slots.finish ⟨logLevel, taxonomyPath, classifier, server⟩))
    (fun members cut => do
      pure (← foldMembers (readMember d) cut members ⟨none, none, none, none⟩).finish)

def toJson (c : Config) : Value :=
  .record
    [("log_level", some (.text c.logLevel)),
     ("taxonomy_path", c.taxonomyPath.map .text),
     ("classifier", some c.classifier.toJson),
     ("server", some c.server.toJson)]

end Config

end Allegiance
