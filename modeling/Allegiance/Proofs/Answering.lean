import Allegiance.Http.Server
import Allegiance.Proofs.FileContents

namespace Allegiance.Http

def Request.IsReload (r : Request) : Prop :=
  r.method = "POST" ∧ Endpoint.ofPath? r.path = some .reload

instance (r : Request) : Decidable r.IsReload := inferInstanceAs (Decidable (_ ∧ _))

/-- A response with some JSON in it, in its compact layout. -/
structure Response.Gives (r : Response) (status : Nat) (v : Json.Value) : Prop where
  status : r.status = status
  media : r.header? "content-type" = some "application/json"
  written : r.body = v.compact

namespace Server

def configuredIn (config : Config) (files : FileSystem) : Except Failure Taxonomy :=
  match config.taxonomyPath with
  | none => .error (.badRequest "No taxonomy_path configured; using the built-in table")
  | some path => (Taxonomy.ofFileIn files path).mapError (fun e => .badRequest e.message)

theorem readConfigured_onlyLooks (config : Config) :
    OnlyLooks (readConfigured config).run (fun files _ => configuredIn config files) := by
  unfold readConfigured configuredIn
  cases config.taxonomyPath with
  | none => exact .throw _
  | some path =>
    refine (Taxonomy.ofFile_onlyLooks path).lift.bindExcept (g := fun r _ _ =>
      r.mapError (fun e : LoadFailure => Failure.badRequest e.message)) ?_
    intro r
    cases r with
    | error e => exact .throw _
    | ok t => exact .ok t

theorem start_onlyLooks (config : Config) :
    OnlyLooks (start config).run (fun files _ =>
      (Taxonomy.loadIn files config.taxonomyPath).map
        (fun t => ⟨config, ⟨t, config.classifier⟩⟩)) := by
  refine ((Taxonomy.load_onlyLooks config.taxonomyPath).bindExcept (fun t =>
    .ok (Server.mk config ⟨t, config.classifier⟩))).of_eq ?_
  intro files _
  cases Taxonomy.loadIn files config.taxonomyPath with
  | error e => rfl
  | ok t => rfl

theorem classifyNow_onlyLooks (c : Classifier) (stats : MatchStats) :
    OnlyLooks (c.classifyNow stats) (fun _ clock => c.classifyMatch clock stats) :=
  OnlyLooks.now.bind (fun clock =>
    (OnlyLooks.noteAll (Classifier.matchRemarks (c.classifyMatch clock stats))).bind
      (fun _ => .pure _))

/-- What an endpoint answers, told by the files and the clock, and the server it leaves. -/
def answerIn (s : Server) (r : Request) (files : FileSystem) (clock : Instant) :
    Endpoint → Response × Server
  | .health => (.json 200 healthReport, s)
  | .taxonomy => (.json 200 (taxonomyReport s.classifier.taxonomy), s)
  | .weapon spelling => (answerWeapon s.classifier spelling, s)
  | .classify =>
    match readBody r with
    | .error refused => (refused, s)
    | .ok stats => (.json 200 (s.classifier.classifyMatch clock stats).toJson, s)
  | .reload =>
    match configuredIn s.config files with
    | .error failure => (failure.response, s)
    | .ok t => (.json 200 (taxonomyReport t), s.install t)

theorem answer_onlyLooks (s : Server) (e : Endpoint) (r : Request) :
    OnlyLooks (s.answer e r) (fun files clock => s.answerIn r files clock e) := by
  cases e with
  | health => exact .pure _
  | taxonomy => exact .pure _
  | weapon spelling => exact .pure _
  | classify =>
    simp only [answer, answerIn]
    cases readBody r with
    | error refused => exact .pure _
    | ok stats => exact (classifyNow_onlyLooks s.classifier stats).bind (fun _ => .pure _)
  | reload =>
    refine (readConfigured_onlyLooks s.config).bind (g := fun r _ _ =>
      match r with
      | .error failure => (failure.response, s)
      | .ok t => (.json 200 (taxonomyReport t), s.install t)) ?_
    intro r
    cases r with
    | error failure => exact .pure _
    | ok t => exact .pure _

/-- Whoever asks for the head only gets no body. -/
def sent (config : Config) (r : Request) (response : Response) : Response :=
  share config (if r.method = "HEAD" then response.withoutBody else response)

theorem respond_allowed (s : Server) {r : Request} {e : Endpoint}
    (he : Endpoint.ofPath? r.path = some e) (hallowed : e.allows r.method = true) :
    OnlyLooks (s.respond r) (fun files clock =>
      (sent s.config r (s.answerIn r files clock e).1, (s.answerIn r files clock e).2)) := by
  have hoptions : r.method ≠ "OPTIONS" := by
    intro h
    rw [h] at hallowed
    cases e <;> cases hallowed
  unfold respond
  simp only [hoptions, he, hallowed, Bool.not_true, Bool.false_eq_true, ↓reduceIte]
  exact (answer_onlyLooks s e r).bind (fun _ => .pure _)

/-- Every endpoint but the reload answers by the server and the clock, and leaves the server. -/
theorem answerIn_eq (s : Server) (r : Request) {e : Endpoint} (h : e ≠ .reload) :
    ∃ reply : Instant → Response, ∀ files clock, s.answerIn r files clock e = (reply clock, s) := by
  cases e with
  | reload => exact absurd rfl h
  | classify =>
    simp only [answerIn]
    cases readBody r with
    | error refused => exact ⟨fun _ => refused, fun _ _ => rfl⟩
    | ok stats =>
      exact ⟨fun clock => .json 200 (s.classifier.classifyMatch clock stats).toJson, fun _ _ => rfl⟩
  | health => exact ⟨fun _ => .json 200 healthReport, fun _ _ => rfl⟩
  | taxonomy => exact ⟨fun _ => .json 200 (taxonomyReport s.classifier.taxonomy), fun _ _ => rfl⟩
  | weapon spelling => exact ⟨fun _ => answerWeapon s.classifier spelling, fun _ _ => rfl⟩

theorem respond_onlyLooks (s : Server) (r : Request) (h : ¬ r.IsReload) :
    ∃ reply : Instant → Response, OnlyLooks (s.respond r) (fun _ clock => (reply clock, s)) := by
  cases he : Endpoint.ofPath? r.path with
  | none =>
    simp only [respond, he]
    split <;> exact ⟨fun _ => _, OnlyLooks.pure _⟩
  | some e =>
    by_cases hallowed : e.allows r.method = true
    · have hreload : e ≠ .reload := by
        rintro rfl
        exact h ⟨by simpa [Endpoint.allows, Endpoint.isPosted] using hallowed, he⟩
      obtain ⟨reply, hreply⟩ := answerIn_eq s r hreload
      refine ⟨fun clock => sent s.config r (reply clock), (respond_allowed s he hallowed).of_eq ?_⟩
      intro files clock
      rw [hreply]
    · simp only [respond, he, hallowed, Bool.not_false, ↓reduceIte]
      split <;> exact ⟨fun _ => _, OnlyLooks.pure _⟩

def reloaded (s : Server) (files : FileSystem) : Response × Server :=
  match configuredIn s.config files with
  | .error failure => (share s.config failure.response, s)
  | .ok t => (share s.config (.json 200 (taxonomyReport t)), s.install t)

theorem respond_reload_onlyLooks (s : Server) (r : Request) (h : r.IsReload) :
    OnlyLooks (s.respond r) (fun files _ => s.reloaded files) := by
  obtain ⟨hmethod, hendpoint⟩ := h
  have hallowed : Endpoint.reload.allows r.method = true := by
    rw [hmethod]
    rfl
  refine (respond_allowed s hendpoint hallowed).of_eq ?_
  intro files _
  simp only [sent, hmethod, String.reduceEq, ↓reduceIte, answerIn, reloaded]
  cases configuredIn s.config files with
  | error failure => rfl
  | ok t => rfl

@[simp] theorem share_status (config : Config) (response : Response) :
    (share config response).status = response.status := by
  simp only [share]
  split <;> rfl

@[simp] theorem share_body (config : Config) (response : Response) :
    (share config response).body = response.body := by
  simp only [share]
  split <;> rfl

theorem gives_share_json (config : Config) (status : Nat) (v : Json.Value) :
    (share config (.json status v)).Gives status v where
  status := share_status config _
  media := by
    simp only [share]
    split <;> rfl
  written := share_body config _

theorem configuredIn_eq_ok {config : Config} {files : FileSystem} {t : Taxonomy} :
    configuredIn config files = .ok t ↔
      ∃ path, config.taxonomyPath = some path ∧ Taxonomy.ofFileIn files path = .ok t := by
  unfold configuredIn
  cases config.taxonomyPath with
  | none => simp
  | some path =>
    dsimp only
    cases hfile : Taxonomy.ofFileIn files path with
    | error e =>
      constructor
      · intro h
        cases h
      · rintro ⟨_, hpath, h⟩
        cases hpath
        rw [hfile] at h
        cases h
    | ok t' =>
      constructor
      · intro h
        cases h
        exact ⟨path, rfl, hfile⟩
      · rintro ⟨_, hpath, h⟩
        cases hpath
        rw [hfile] at h
        cases h
        rfl

theorem loadIn_of_configuredIn {config : Config} {files : FileSystem} {t : Taxonomy}
    (h : configuredIn config files = .ok t) :
    Taxonomy.loadIn files config.taxonomyPath = .ok t := by
  obtain ⟨path, hpath, hfile⟩ := configuredIn_eq_ok.mp h
  rw [hpath]
  exact hfile

theorem configuredIn_error {config : Config} {files : FileSystem} {failure : Failure}
    (h : configuredIn config files = .error failure) : failure.status = 400 := by
  unfold configuredIn at h
  cases hpath : config.taxonomyPath with
  | none =>
    rw [hpath] at h
    cases h
    rfl
  | some path =>
    rw [hpath] at h
    cases hfile : Taxonomy.ofFileIn files path with
    | error e =>
      simp only [hfile] at h
      cases h
      rfl
    | ok t =>
      simp only [hfile] at h
      cases h

/-- A reload takes up the configured file if it is a taxonomy, and else changes nothing. -/
theorem reloaded_cases (s : Server) (files : FileSystem) :
    (∃ t, configuredIn s.config files = .ok t ∧
      s.reloaded files = (share s.config (.json 200 (taxonomyReport t)), s.install t)) ∨
    ((∀ t, configuredIn s.config files ≠ .ok t) ∧
      (s.reloaded files).1.status = 400 ∧ (s.reloaded files).2 = s) := by
  unfold reloaded
  cases h : configuredIn s.config files with
  | ok t => exact .inl ⟨t, rfl, rfl⟩
  | error failure =>
    refine .inr ⟨by simp, ?_, rfl⟩
    rw [share_status]
    exact configuredIn_error h

end Server

end Allegiance.Http
