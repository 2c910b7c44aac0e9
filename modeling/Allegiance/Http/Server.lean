import Allegiance.Config.Basic
import Allegiance.Http.Endpoint
import Allegiance.Http.MediaType
import Allegiance.Http.Message
import Allegiance.Storage.Files
import Allegiance.Taxonomy.Files

namespace Allegiance.Http

open Document (Misread)
open Json (Value)

/-- The settings stay; every answer comes from the one classifier that is installed. -/
structure Server where
  config : Config
  classifier : Classifier

def programVersion : String := "0.1.0"

def bodyLimit : Nat := 2097152

namespace Server

def healthReport : Value :=
  .object [("status", .text "ok"), ("version", .text programVersion)]

def groupReport (g : WeaponGroup) : Value :=
  .object
    [("nation", .text g.nation),
     ("faction", .text g.faction.name),
     ("infantry", .integer g.infantry.length),
     ("vehicles", .integer g.vehicles.length)]

def taxonomyReport (t : Taxonomy) : Value :=
  .object
    [("version", .text t.version),
     ("totalWeapons", .integer t.size),
     ("axisWeapons", .integer (t.count .axis)),
     ("alliesWeapons", .integer (t.count .allies)),
     ("groups", .list (t.groups.map groupReport))]

def weaponReport (weapon : String) (e : WeaponEntry) : Value :=
  .object
    [("weapon", .text weapon),
     ("faction", .text e.faction.name),
     ("nation", .text e.nation),
     ("kind", .text e.kind.name)]

def answerWeapon (c : Classifier) (spelling : String) : Response :=
  match Endpoint.decodeWeapon? spelling with
  | none => .text 400 "Invalid URL: Invalid UTF-8 in `weapon`"
  | some weapon =>
    match c.taxonomy.lookup weapon with
    | some e => .json 200 (weaponReport weapon e)
    | none => (Failure.notFound ("Weapon '" ++ weapon ++ "' is not in the taxonomy")).response

def saysJson (r : Request) : Bool :=
  match r.header? "content-type" with
  | none => false
  | some value =>
    value.toList.all (fun c => c = '\t' || (' ' ≤ c && c < '\x7f')) &&
      (MediaType.ofString? value).any MediaType.isJson

def refusal : Misread → Response
  | .broken b => .text 400 ("Failed to parse the request body as JSON: " ++ b.message)
  | .misfit path cause =>
    let place := if path.isEmpty then "" else Document.pathText path ++ ": "
    .text 422
      ("Failed to deserialize the JSON body into the target type: " ++ place ++ cause.message .json)

/-- Text after the document does not count. -/
def readBody (r : Request) : Except Response MatchStats :=
  if !saysJson r then .error (.text 415 "Expected request with `Content-Type: application/json`")
  else if bodyLimit < r.body.length then
    .error (.text 413 "Failed to buffer the request body: length limit exceeded")
  else (Json.readStart MatchStats.read r.body).mapError refusal

def install (s : Server) (t : Taxonomy) : Server :=
  { s with classifier := ⟨t, s.config.classifier⟩ }

variable {m : Type → Type} [Monad m] [Host m]

def start (config : Config) : ExceptT LoadFailure m Server := do
  let t ← Taxonomy.load config.taxonomyPath
  pure ⟨config, ⟨t, config.classifier⟩⟩

def readConfigured (config : Config) : ExceptT Failure m Taxonomy := do
  match config.taxonomyPath with
  | none => throw (.badRequest "No taxonomy_path configured; using the built-in table")
  | some path =>
    match (← (Taxonomy.ofFile path : ExceptT LoadFailure m Taxonomy).run) with
    | .error e => throw (.badRequest e.message)
    | .ok t => pure t

def answer (s : Server) (e : Endpoint) (r : Request) : m (Response × Server) := do
  match e with
  | .health => pure (.json 200 healthReport, s)
  | .taxonomy => pure (.json 200 (taxonomyReport s.classifier.taxonomy), s)
  | .weapon spelling => pure (answerWeapon s.classifier spelling, s)
  | .classify =>
    match readBody r with
    | .error refused => pure (refused, s)
    | .ok stats => do
      let result ← s.classifier.classifyNow stats
      pure (.json 200 result.toJson, s)
  | .reload =>
    match (← (readConfigured s.config : ExceptT Failure m Taxonomy).run) with
    | .error failure => pure (failure.response, s)
    | .ok t => pure (.json 200 (taxonomyReport t), s.install t)

/-- The headers that let pages of other origins see a response. -/
def share (config : Config) (r : Response) : Response :=
  let r := r.addHeader "vary"
    "origin, access-control-request-method, access-control-request-headers"
  let origin := config.server.corsOrigin
  if origin = "*" ∨ isHeaderValue origin then r.addHeader "access-control-allow-origin" origin else r

/-- Whoever asks for options is told that everything is allowed. -/
def respond (s : Server) (r : Request) : m (Response × Server) := do
  let endpoint := Endpoint.ofPath? r.path
  let withAllow (response : Response) : Response :=
    endpoint.elim response (fun e => response.addHeader "allow" e.allowed)
  if r.method = "OPTIONS" then
    let response := withAllow ((Response.empty 200).addHeader "access-control-allow-methods" "*"
      |>.addHeader "access-control-allow-headers" "*")
    pure (share s.config response, s)
  else
    match endpoint with
    | none => pure (share s.config (.empty 404), s)
    | some e =>
      if !e.allows r.method then pure (share s.config (withAllow (.empty 405)), s)
      else do
        let (response, s') ← s.answer e r
        let response := if r.method = "HEAD" then response.withoutBody else response
        pure (share s.config response, s')

end Server

end Allegiance.Http
