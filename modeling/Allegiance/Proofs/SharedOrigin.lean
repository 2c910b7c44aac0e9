import Allegiance.Proofs.Characters
import Allegiance.Proofs.Reload

namespace Allegiance

/-- A text that the value of a header can be: no control characters but tabs. -/
def IsHeaderText (s : String) : Prop := ∀ c ∈ s.toList, c = '\t' ∨ ' ' ≤ c ∧ c ≠ '\x7f'

instance (s : String) : Decidable (IsHeaderText s) := inferInstanceAs (Decidable (∀ _ ∈ _, _))

theorem isHeaderText_star : IsHeaderText "*" := by
  intro c hc
  have hstar : "*".toList = ['*'] := rfl
  rw [hstar, List.mem_singleton] at hc
  rw [hc]
  exact .inr (by decide)

theorem isHeaderValue_iff {s : String} : isHeaderValue s = true ↔ IsHeaderText s := by
  have hhigh : ∀ b : UInt8, 128 ≤ b → isHeaderByte b = true := by
    intro b hb
    have hb : 128 ≤ b.toNat := hb
    simp only [isHeaderByte, Bool.or_eq_true, Bool.and_eq_true, decide_eq_true_eq]
    refine .inr ⟨UInt8.le_iff_toNat_le.mpr (by change 32 ≤ b.toNat; omega), ?_⟩
    rintro rfl
    exact absurd hb (by decide)
  have hlow : ∀ n < 128, isHeaderByte (UInt8.ofNat n) = true ↔ n = 9 ∨ 32 ≤ n ∧ n ≠ 127 := by
    decide
  rw [isHeaderValue, Utf8.all_encode_iff hhigh]
  refine forall₂_congr (fun c _ => ?_)
  have hnat : ∀ d : Char, c = d ↔ c.toNat = d.toNat := fun d =>
    ⟨congrArg _, fun h => Char.toNat_inj.mp h⟩
  rw [hnat, Ne, hnat, Char.le_def, UInt32.le_iff_toNat_le]
  change (c.toNat < 128 → _) ↔ (c.toNat = 9 ∨ 32 ≤ c.toNat ∧ ¬ c.toNat = 127)
  constructor
  · intro h
    by_cases hc : c.toNat < 128
    · exact (hlow _ hc).mp (h hc)
    · omega
  · exact fun h hc => (hlow _ hc).mpr h

namespace Config

/-- Settings with nothing wrong, unless it is their origin. -/
def ValidButOrigin (c : Config) : Prop :=
  validate { c with server := { c.server with corsOrigin := "*" } } = .ok ()

instance (c : Config) : Decidable c.ValidButOrigin := inferInstanceAs (Decidable (_ = _))

/-- The same settings with another origin. -/
def withOrigin (c : Config) (origin : String) : Config :=
  { c with server := { c.server with corsOrigin := origin } }

/-- Anything else that is wrong comes first, and does not depend on the origin. If nothing is, an
origin is accepted exactly if a header can carry it. -/
theorem validate_withOrigin (c : Config) :
    (∃ flaw, (∀ s, flaw ≠ .origin s) ∧ ∀ origin, (c.withOrigin origin).validate = .error flaw) ∨
    ∀ origin, (c.withOrigin origin).validate =
      if IsHeaderText origin then .ok () else .error (.origin origin) := by
  -- The checks as they are made: the ratio, the port, and the origin last.
  by_cases hratio :
      (!(Binary64.lt 0 c.classifier.thresholdRatio && c.classifier.thresholdRatio.le 1)) = true
  · refine .inl ⟨.ratio c.classifier.thresholdRatio, by simp, fun origin => ?_⟩
    exact if_pos hratio
  · by_cases hport : c.server.port = 0
    · refine .inl ⟨.port, by simp, fun origin => ?_⟩
      exact (if_neg hratio).trans (if_pos hport)
    · refine .inr (fun origin => ((if_neg hratio).trans (if_neg hport)).trans ?_)
      have horigin : (origin ≠ "*" ∧ (!isHeaderValue origin) = true) ↔ ¬ IsHeaderText origin := by
        rw [Bool.not_eq_true', ← Bool.not_eq_true, isHeaderValue_iff, and_iff_right_iff_imp]
        rintro hno rfl
        exact hno isHeaderText_star
      exact (if_congr horigin rfl rfl).trans (ite_not ..)

theorem validate_eq_ok_iff {c : Config} (h : c.ValidButOrigin) :
    c.validate = .ok () ↔ IsHeaderText c.server.corsOrigin := by
  rcases c.validate_withOrigin with ⟨flaw, -, hflaw⟩ | hclean
  · cases (hflaw "*").symm.trans h
  · have hvalid : c.validate = _ := hclean c.server.corsOrigin
    rw [hvalid]
    split <;> simp [*]

theorem validButOrigin_of_validate {c : Config} (h : c.validate = .ok ()) : c.ValidButOrigin := by
  rcases c.validate_withOrigin with ⟨flaw, -, hflaw⟩ | hclean
  · cases (hflaw c.server.corsOrigin).symm.trans h
  · exact (hclean "*").trans (if_pos isHeaderText_star)

/-- Settings that are refused for an origin are refused for theirs, and no header can carry it. -/
theorem not_isHeaderText_of_validate {c : Config} {s : String}
    (h : c.validate = .error (.origin s)) :
    s = c.server.corsOrigin ∧ ¬ IsHeaderText c.server.corsOrigin := by
  rcases c.validate_withOrigin with ⟨flaw, hother, hflaw⟩ | hclean
  · exact absurd (Except.error.inj ((hflaw c.server.corsOrigin).symm.trans h)) (hother s)
  · have hrefused := (hclean c.server.corsOrigin).symm.trans h
    split at hrefused
    · cases hrefused
    · rename_i hno
      cases hrefused
      exact ⟨rfl, hno⟩

end Config

namespace Http

namespace Response

def allowedOrigins (r : Response) : List String :=
  (r.headers.filter (fun h => h.1 = "access-control-allow-origin")).map Prod.snd

@[simp] theorem allowedOrigins_empty (status : Nat) : (empty status).allowedOrigins = [] := rfl

theorem allowedOrigins_addHeader (r : Response) (name value : String) :
    (r.addHeader name value).allowedOrigins =
      r.allowedOrigins ++ if name = "access-control-allow-origin" then [value] else [] := by
  simp only [allowedOrigins, addHeader, List.filter_append, List.map_append]
  split <;> simp [*]

theorem header?_allowOrigin (r : Response) :
    r.header? "access-control-allow-origin" = r.allowedOrigins.head? := by
  simp only [header?, allowedOrigins]
  induction r.headers with
  | nil => rfl
  | cons h headers ih =>
    obtain ⟨name, value⟩ := h
    by_cases hname : name = "access-control-allow-origin"
    · simp [hname]
    · have hne : ("access-control-allow-origin" == name) = false := by simpa using Ne.symm hname
      simp only [List.lookup_cons, hne, List.filter_cons, hname, decide_false]
      exact ih

end Response

namespace Server

theorem allowedOrigins_of_readBody {r : Request} {refused : Response}
    (h : readBody r = .error refused) : refused.allowedOrigins = [] := by
  simp only [readBody] at h
  split at h
  · cases h
    rfl
  · split at h
    · cases h
      rfl
    · cases hread : Json.readStart MatchStats.read r.body with
      | ok stats =>
        rw [hread] at h
        cases h
      | error cause =>
        rw [hread] at h
        cases h
        cases cause <;> rfl

/-- No endpoint speaks of origins. -/
theorem allowedOrigins_answerIn (s : Server) (r : Request) (files : FileSystem) (clock : Instant)
    (e : Endpoint) : (s.answerIn r files clock e).1.allowedOrigins = [] := by
  cases e with
  | health => rfl
  | taxonomy => rfl
  | weapon spelling =>
    simp only [answerIn, answerWeapon]
    split
    · rfl
    · split <;> rfl
  | classify =>
    simp only [answerIn]
    split
    · rename_i refused hrefused
      exact allowedOrigins_of_readBody hrefused
    · rfl
  | reload =>
    simp only [answerIn]
    split <;> rfl

theorem allowedOrigins_share (config : Config) (response : Response) :
    (share config response).allowedOrigins = response.allowedOrigins ++
      if IsHeaderText config.server.corsOrigin then [config.server.corsOrigin] else [] := by
  have hcarried : config.server.corsOrigin = "*" ∨ isHeaderValue config.server.corsOrigin = true ↔
      IsHeaderText config.server.corsOrigin := by
    rw [isHeaderValue_iff, or_iff_right_iff_imp]
    exact fun h => h ▸ isHeaderText_star
  simp only [share, hcarried]
  split <;> simp [Response.allowedOrigins_addHeader]

/-- A request that no endpoint takes is answered at once, with a response that does not speak of
origins before it is shared. -/
theorem respond_untaken (s : Server) {r : Request}
    (h : ∀ e, Endpoint.ofPath? r.path = some e → e.allows r.method = false) :
    ∃ bare : Response, bare.allowedOrigins = [] ∧
      OnlyLooks (s.respond r) (fun _ _ => (share s.config bare, s)) := by
  cases he : Endpoint.ofPath? r.path with
  | none =>
    simp only [respond, he, Option.elim_none]
    split
    · exact ⟨_, by simp [Response.allowedOrigins_addHeader], .pure _⟩
    · exact ⟨_, Response.allowedOrigins_empty 404, .pure _⟩
  | some e =>
    simp only [respond, he, h e he, Option.elim_some, Bool.not_false, ↓reduceIte]
    split
    · exact ⟨_, by simp [Response.allowedOrigins_addHeader], .pure _⟩
    · exact ⟨_, by simp [Response.allowedOrigins_addHeader], .pure _⟩

end Server

namespace Site

/-- Whatever is asked for, the origins are put on the response at the end. -/
theorem allowedOrigins_ask (site : Site) (r : Request) :
    (site.ask r).1.allowedOrigins =
      if IsHeaderText site.server.config.server.corsOrigin then
        [site.server.config.server.corsOrigin] else [] := by
  have hshared : ∃ bare : Response, bare.allowedOrigins = [] ∧
      (site.ask r).1 = Server.share site.server.config bare := by
    by_cases htaken : ∃ e, Endpoint.ofPath? r.path = some e ∧ e.allows r.method = true
    · obtain ⟨e, he, hallowed⟩ := htaken
      refine ⟨_, ?_, site.ask_allowed he hallowed⟩
      split
      · exact Server.allowedOrigins_answerIn _ _ _ _ _
      · exact Server.allowedOrigins_answerIn _ _ _ _ _
    · simp only [not_exists, not_and, Bool.not_eq_true] at htaken
      obtain ⟨bare, hbare, hlooks⟩ := site.server.respond_untaken htaken
      obtain ⟨journal, hask⟩ := ask_eq hlooks
      exact ⟨bare, hbare, congrArg Prod.fst hask⟩
  obtain ⟨bare, hbare, hask⟩ := hshared
  rw [hask, Server.allowedOrigins_share, hbare, List.nil_append]

/-- Let a server be started under settings with nothing wrong but perhaps their origin. Whatever
happens, the settings are valid exactly if every response has the header, and that is exactly if a
header can carry the origin; a response then has it once, with the configured origin. Under settings
that are refused for their origin no response has it. -/
theorem origin_shared (config : Config) (machine : Machine) (site : Site)
    (hstart : start config machine = .ok site) (incidents : List Incident) (r : Request) :
    (config.ValidButOrigin →
      (config.validate = .ok () ↔
        (((site.run incidents).2.ask r).1.header? "access-control-allow-origin").isSome = true) ∧
      (config.validate = .ok () ↔ IsHeaderText config.server.corsOrigin)) ∧
    (config.validate = .ok () →
      ((site.run incidents).2.ask r).1.allowedOrigins = [config.server.corsOrigin]) ∧
    (∀ origin ∈ ((site.run incidents).2.ask r).1.allowedOrigins,
      origin = config.server.corsOrigin) ∧
    (∀ s, config.validate = .error (.origin s) →
      s = config.server.corsOrigin ∧
      ((site.run incidents).2.ask r).1.allowedOrigins = []) := by
  obtain ⟨t, -, hserver⟩ := run_runsOn incidents (runsOn_of_start hstart)
  have hask := (site.run incidents).2.allowedOrigins_ask r
  rw [hserver] at hask
  simp only [Response.header?_allowOrigin, hask]
  refine ⟨fun hvalid => ⟨?_, Config.validate_eq_ok_iff hvalid⟩, ?_, ?_, ?_⟩
  · rw [Config.validate_eq_ok_iff hvalid]
    split <;> simp [*]
  · intro hok
    rw [if_pos ((Config.validate_eq_ok_iff (Config.validButOrigin_of_validate hok)).mp hok)]
  · intro origin horigin
    split at horigin
    · exact List.mem_singleton.mp horigin
    · cases horigin
  · intro s hrefused
    obtain ⟨hs, hno⟩ := Config.not_isHeaderText_of_validate hrefused
    exact ⟨hs, if_neg hno⟩

def sharedWith (origin : String) : Config :=
  { namedFile with server := { ServerConfig.standard with corsOrigin := origin } }

def nowhere (method : String) : Request :=
  ⟨method, "/nowhere", [("origin", "https://elsewhere.example")], []⟩

/-- A path that leads nowhere is answered with the configured origin, but not with one of two
lines. -/
theorem origin_shared_nowhere :
    (∃ site, start (sharedWith "https://admin.example") oneWeaponMachine = .ok site ∧
      (site.ask (nowhere "PUT")).1.allowedOrigins = ["https://admin.example"]) ∧
    ∃ site, start (sharedWith "bad\norigin") oneWeaponMachine = .ok site ∧
      (site.ask (nowhere "OPTIONS")).1.allowedOrigins = [] := by
  constructor
  · obtain ⟨t, journal, -, hstart⟩ := exists_start_oneWeapon (sharedWith "https://admin.example") rfl
    obtain ⟨-, hvalid, -⟩ := origin_shared _ _ _ hstart [] (nowhere "PUT")
    exact ⟨_, hstart, hvalid (by decide +kernel)⟩
  · obtain ⟨t, journal, -, hstart⟩ := exists_start_oneWeapon (sharedWith "bad\norigin") rfl
    have hrefused : (sharedWith "bad\norigin").validate = .error (.origin "bad\norigin") := by
      decide +kernel
    obtain ⟨-, -, -, hnone⟩ := origin_shared _ _ _ hstart [] (nowhere "OPTIONS")
    exact ⟨_, hstart, (hnone _ hrefused).2⟩

end Site

end Http

end Allegiance
