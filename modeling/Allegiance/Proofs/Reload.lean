import Allegiance.Proofs.Answering

namespace Allegiance.Http

structure Site where
  server : Server
  machine : Machine

/-- What happens: a request, a change of the files behind the back of the server, or time. -/
inductive Incident
  | request (r : Request)
  | files (now : FileSystem)
  | clock (now : Instant)

namespace Site

def start (config : Config) (machine : Machine) : Except LoadFailure Site :=
  let (result, machine) :=
    (Server.start config : ExceptT LoadFailure (StateM Machine) Server).run.run machine
  result.map (fun server => ⟨server, machine⟩)

def ask (site : Site) (r : Request) : Response × Site :=
  let ((response, server), machine) :=
    (site.server.respond r : StateM Machine (Response × Server)).run site.machine
  (response, ⟨server, machine⟩)

def step (site : Site) : Incident → Option Response × Site
  | .request r => ((site.ask r).1, (site.ask r).2)
  | .files now => (none, { site with machine := { site.machine with files := now } })
  | .clock now => (none, { site with machine := { site.machine with clock := now } })

def run (site : Site) : List Incident → List Response × Site
  | [] => ([], site)
  | i :: rest =>
    let (response, site) := site.step i
    let (responses, site) := site.run rest
    (response.toList ++ responses, site)

def Reloads (site : Site) : Incident → Prop
  | .request r => r.IsReload ∧ (site.ask r).1.status = 200
  | .files _ | .clock _ => False

instance (site : Site) (i : Incident) : Decidable (site.Reloads i) := by
  cases i <;> unfold Reloads <;> infer_instance

/-- The files at the last reload that succeeded. Before the first one these are the given ones. -/
def source (site : Site) (files : FileSystem) : List Incident → FileSystem
  | [] => files
  | i :: rest =>
    (site.step i).2.source (if site.Reloads i then site.machine.files else files) rest

def Accepts (site : Site) (path : String) (t : Taxonomy) : Prop :=
  ((Taxonomy.ofFile path : ExceptT LoadFailure (StateM Machine) Taxonomy).run.run site.machine).1 =
    .ok t

/-- The server is one that would start on the given files. -/
def RunsOn (config : Config) (files : FileSystem) (site : Site) : Prop :=
  ∃ t, Taxonomy.loadIn files config.taxonomyPath = .ok t ∧
    site.server = ⟨config, ⟨t, config.classifier⟩⟩

def Agrees (a b : Site) : Prop :=
  a.server = b.server ∧ a.machine.files = b.machine.files ∧ a.machine.clock = b.machine.clock

theorem runsOn_of_start {config : Config} {machine : Machine} {site : Site}
    (h : start config machine = .ok site) : RunsOn config machine.files site := by
  obtain ⟨journal, hstart⟩ := Server.start_onlyLooks config machine
  simp only [start, hstart] at h
  cases hload : Taxonomy.loadIn machine.files config.taxonomyPath with
  | error e => simp [hload, Except.map] at h
  | ok t =>
    simp only [hload, Except.map, Except.ok.injEq] at h
    subst h
    exact ⟨t, hload, rfl⟩

theorem start_of_loadIn {config : Config} {machine : Machine} {t : Taxonomy}
    (h : Taxonomy.loadIn machine.files config.taxonomyPath = .ok t) :
    ∃ journal, start config machine =
      .ok ⟨⟨config, ⟨t, config.classifier⟩⟩, { machine with journal }⟩ := by
  obtain ⟨journal, hstart⟩ := Server.start_onlyLooks config machine
  exact ⟨journal, by simp only [start, hstart, h, Except.map]⟩

theorem ask_eq {site : Site} {r : Request} {f : FileSystem → Instant → Response × Server}
    (h : OnlyLooks (site.server.respond r) f) :
    ∃ journal, site.ask r = ((f site.machine.files site.machine.clock).1,
      ⟨(f site.machine.files site.machine.clock).2, { site.machine with journal }⟩) := by
  obtain ⟨journal, hr⟩ := h site.machine
  exact ⟨journal, by simp only [ask, hr]⟩

theorem ask_allowed (site : Site) {r : Request} {e : Endpoint}
    (he : Endpoint.ofPath? r.path = some e) (hallowed : e.allows r.method = true) :
    (site.ask r).1 = Server.sent site.server.config r
      (site.server.answerIn r site.machine.files site.machine.clock e).1 := by
  obtain ⟨journal, hask⟩ := ask_eq (site.server.respond_allowed he hallowed)
  rw [hask]

theorem ask_reload (site : Site) {r : Request} (h : r.IsReload) :
    ∃ journal, site.ask r = ((site.server.reloaded site.machine.files).1,
      ⟨(site.server.reloaded site.machine.files).2, { site.machine with journal }⟩) :=
  ask_eq (site.server.respond_reload_onlyLooks r h)

theorem ask_of_not_reload (server : Server) {r : Request} (h : ¬ r.IsReload) :
    ∃ reply : Instant → Response, ∀ machine, ∃ journal,
      ask ⟨server, machine⟩ r = (reply machine.clock, ⟨server, { machine with journal }⟩) := by
  obtain ⟨reply, hreply⟩ := server.respond_onlyLooks r h
  refine ⟨reply, fun machine => ?_⟩
  have hask : OnlyLooks ((Site.mk server machine).server.respond r) _ := hreply
  exact ask_eq hask

theorem accepts_iff {site : Site} {path : String} {t : Taxonomy} :
    site.Accepts path t ↔ Taxonomy.ofFileIn site.machine.files path = .ok t := by
  obtain ⟨journal, h⟩ := Taxonomy.ofFile_onlyLooks path site.machine
  rw [Accepts, h]

/-- A reload succeeds exactly if the settings name a file that is a taxonomy now, and fails with 400
in all other cases. -/
theorem reload_answer {config : Config} {files : FileSystem} {site : Site} {r : Request}
    (hsite : RunsOn config files site) (hr : r.IsReload) :
    ((site.ask r).1.status = 200 ↔
      ∃ path t, config.taxonomyPath = some path ∧ site.Accepts path t) ∧
    (∀ path t, config.taxonomyPath = some path → site.Accepts path t →
      (site.ask r).1.Gives 200 (Server.taxonomyReport t)) ∧
    ((site.ask r).1.status ≠ 200 → (site.ask r).1.status = 400) := by
  obtain ⟨server, machine⟩ := site
  obtain ⟨t₀, _, rfl⟩ := hsite
  obtain ⟨journal, hask⟩ := ask_reload ⟨⟨config, ⟨t₀, config.classifier⟩⟩, machine⟩ hr
  have htold : ∀ path t, config.taxonomyPath = some path →
      Taxonomy.ofFileIn machine.files path = .ok t →
      Server.configuredIn config machine.files = .ok t := fun path t hpath hfile =>
    Server.configuredIn_eq_ok.mpr ⟨path, hpath, hfile⟩
  simp only [hask, accepts_iff]
  rcases Server.reloaded_cases ⟨config, ⟨t₀, config.classifier⟩⟩ machine.files with
    ⟨t, ht, h⟩ | ⟨hnone, hstatus, _⟩
  · have hgives := Server.gives_share_json config 200 (Server.taxonomyReport t)
    rw [h]
    refine ⟨⟨fun _ => ?_, fun _ => hgives.status⟩, ?_, fun hne => absurd hgives.status hne⟩
    · obtain ⟨path, hpath, hfile⟩ := Server.configuredIn_eq_ok.mp ht
      exact ⟨path, t, hpath, hfile⟩
    · intro path t' hpath hfile
      have : t = t' := by simpa [ht] using htold path t' hpath hfile
      exact this ▸ hgives
  · refine ⟨⟨fun h200 => absurd (hstatus.symm.trans h200) (by decide), ?_⟩, ?_, fun _ => hstatus⟩
    · rintro ⟨path, t, hpath, hfile⟩
      exact absurd (htold path t hpath hfile) (hnone t)
    · intro path t hpath hfile
      exact absurd (htold path t hpath hfile) (hnone t)

theorem ask_of_reloads {site : Site} {r : Request} (h : site.Reloads (.request r)) :
    ∃ t journal, Server.configuredIn site.server.config site.machine.files = .ok t ∧
      (site.ask r).2 = ⟨site.server.install t, { site.machine with journal }⟩ := by
  obtain ⟨hr, h200⟩ := h
  obtain ⟨journal, hask⟩ := site.ask_reload hr
  rcases site.server.reloaded_cases site.machine.files with ⟨t, ht, h⟩ | ⟨_, hstatus, _⟩
  · exact ⟨t, journal, ht, by rw [hask, h]⟩
  · rw [hask] at h200
    exact absurd (hstatus.symm.trans h200) (by decide)

theorem ask_of_not_reloads {site : Site} {r : Request} (h : ¬ site.Reloads (.request r)) :
    ∃ journal, (site.ask r).2 = ⟨site.server, { site.machine with journal }⟩ := by
  by_cases hr : r.IsReload
  · obtain ⟨journal, hask⟩ := site.ask_reload hr
    rcases site.server.reloaded_cases site.machine.files with ⟨t, _, hdone⟩ | ⟨_, _, hsame⟩
    · refine absurd ⟨hr, ?_⟩ h
      rw [hask, hdone]
      exact Server.share_status _ _
    · exact ⟨journal, by rw [hask, hsame]⟩
  · obtain ⟨reply, hreply⟩ := ask_of_not_reload site.server hr
    obtain ⟨journal, hask⟩ := hreply site.machine
    exact ⟨journal, congrArg Prod.snd hask⟩

/-- Whatever a request is, the server runs on the files of the last reload that succeeded. -/
theorem ask_runsOn {config : Config} {files : FileSystem} {site : Site} (r : Request)
    (h : RunsOn config files site) :
    RunsOn config (if site.Reloads (.request r) then site.machine.files else files)
      (site.ask r).2 := by
  obtain ⟨t₀, hload, hserver⟩ := h
  by_cases hreloads : site.Reloads (.request r)
  · obtain ⟨t, journal, ht, hask⟩ := ask_of_reloads hreloads
    rw [hserver] at ht
    rw [if_pos hreloads, hask, hserver]
    exact ⟨t, Server.loadIn_of_configuredIn ht, rfl⟩
  · obtain ⟨journal, hask⟩ := ask_of_not_reloads hreloads
    rw [if_neg hreloads, hask]
    exact ⟨t₀, hload, hserver⟩

theorem step_runsOn {config : Config} {files : FileSystem} {site : Site} (i : Incident)
    (h : RunsOn config files site) :
    RunsOn config (if site.Reloads i then site.machine.files else files) (site.step i).2 := by
  cases i with
  | request r => exact ask_runsOn r h
  | files now => exact h
  | clock now => exact h

theorem run_runsOn {config : Config} (incidents : List Incident) {files : FileSystem} {site : Site}
    (h : RunsOn config files site) :
    RunsOn config (site.source files incidents) (site.run incidents).2 := by
  induction incidents generalizing files site with
  | nil => exact h
  | cons i rest ih => exact ih (step_runsOn i h)

theorem step_agrees {a b : Site} (h : Agrees a b) (i : Incident) :
    (a.step i).1 = (b.step i).1 ∧ Agrees (a.step i).2 (b.step i).2 := by
  obtain ⟨server, machine⟩ := a
  obtain ⟨server', machine'⟩ := b
  obtain ⟨hserver, hfiles, hclock⟩ := h
  simp only at hserver hfiles hclock
  subst hserver
  cases i with
  | files now => exact ⟨rfl, rfl, rfl, hclock⟩
  | clock now => exact ⟨rfl, rfl, hfiles, rfl⟩
  | request r =>
    by_cases hr : r.IsReload
    · obtain ⟨_, ha⟩ := ask_reload ⟨server, machine⟩ hr
      obtain ⟨_, hb⟩ := ask_reload ⟨server, machine'⟩ hr
      simp only [step, ha, hb, hfiles]
      exact ⟨trivial, rfl, rfl, hclock⟩
    · obtain ⟨reply, hreply⟩ := ask_of_not_reload server hr
      obtain ⟨_, ha⟩ := hreply machine
      obtain ⟨_, hb⟩ := hreply machine'
      simp only [step, ha, hb, hclock]
      exact ⟨trivial, rfl, hfiles, rfl⟩

theorem run_agrees (incidents : List Incident) {a b : Site} (h : Agrees a b) :
    (a.run incidents).1 = (b.run incidents).1 := by
  induction incidents generalizing a b with
  | nil => rfl
  | cons i rest ih =>
    obtain ⟨hanswer, hagrees⟩ := step_agrees h i
    simp only [run, hanswer, ih hagrees]

/-- Reloading is restarting. Whatever has happened before, a reload succeeds exactly if the settings
name a file that is a taxonomy at that moment, and tells of that taxonomy. Any other request is
answered as by a server that starts now on the configured file of the last reload that succeeded.
And whatever is asked, unless it is a reload that succeeds, no later answer depends on it. -/
theorem reload_restarts (config : Config) (machine : Machine) (site : Site)
    (hstart : start config machine = .ok site) (incidents : List Incident) (r : Request) :
    (r.IsReload →
      ((((site.run incidents).2.ask r).1.status = 200 ↔
        ∃ path t, config.taxonomyPath = some path ∧ (site.run incidents).2.Accepts path t) ∧
      (∀ path t, config.taxonomyPath = some path → (site.run incidents).2.Accepts path t →
        ((site.run incidents).2.ask r).1.Gives 200 (.object
          [("version", .text t.version),
           ("totalWeapons", .integer t.size),
           ("axisWeapons", .integer (t.count .axis)),
           ("alliesWeapons", .integer (t.count .allies)),
           ("groups", .list (t.groups.map (fun g => .object
             [("nation", .text g.nation),
              ("faction", .text (match g.faction with | .axis => "axis" | .allies => "allies")),
              ("infantry", .integer g.infantry.length),
              ("vehicles", .integer g.vehicles.length)])))])) ∧
      (((site.run incidents).2.ask r).1.status ≠ 200 →
        ((site.run incidents).2.ask r).1.status = 400))) ∧
    (¬ r.IsReload → ∀ machine' : Machine,
      machine'.clock = (site.run incidents).2.machine.clock →
      (∀ path, config.taxonomyPath = some path →
        machine'.files.read path = (site.source machine.files incidents).read path) →
      ∃ fresh, start config machine' = .ok fresh ∧
        (fresh.ask r).1 = ((site.run incidents).2.ask r).1) ∧
    (¬ (site.run incidents).2.Reloads (.request r) → ∀ later : List Incident,
      (((site.run incidents).2.ask r).2.run later).1 = ((site.run incidents).2.run later).1) := by
  have hnow := run_runsOn incidents (runsOn_of_start hstart)
  generalize (site.run incidents).2 = now at hnow ⊢
  refine ⟨fun hr => reload_answer hnow hr, ?_, ?_⟩
  · intro hr machine' hclock hread
    obtain ⟨t, hload, hserver⟩ := hnow
    have hload' : Taxonomy.loadIn machine'.files config.taxonomyPath = .ok t :=
      (Taxonomy.loadIn_congr hread).trans hload
    obtain ⟨journal, hfresh⟩ := start_of_loadIn hload'
    refine ⟨_, hfresh, ?_⟩
    obtain ⟨reply, hreply⟩ := ask_of_not_reload ⟨config, ⟨t, config.classifier⟩⟩ hr
    obtain ⟨_, hnow⟩ := hreply now.machine
    obtain ⟨_, hthen⟩ := hreply { machine' with journal }
    rw [hthen, show now = ⟨now.server, now.machine⟩ from rfl, hserver, hnow, ← hclock]
  · intro h later
    obtain ⟨journal, hask⟩ := ask_of_not_reloads h
    exact run_agrees later (hask ▸ ⟨rfl, rfl, rfl⟩)

/-- Settings that name a file, and a machine where it is a taxonomy of one weapon. -/
def namedFile : Config := { Config.standard with taxonomyPath := some "/weapons.toml" }

def oneWeaponMachine : Machine :=
  { Machine.blank with
    files := Machine.blank.files.set ["weapons.toml"] (some (.file (Utf8.encode
      "version = '1'\n[[groups]]\nnation = 'germany'\nfaction = 'axis'\ninfantry = ['MP40']\n"))) }

theorem exists_start_of_isOk {config : Config} {machine : Machine} {path : String}
    (hpath : config.taxonomyPath = some path)
    (hthere : (Taxonomy.ofFileIn machine.files path).isOk = true) :
    ∃ t journal, Taxonomy.ofFileIn machine.files path = .ok t ∧
      start config machine = .ok ⟨⟨config, ⟨t, config.classifier⟩⟩, { machine with journal }⟩ := by
  obtain ⟨t, hfile⟩ := exists_of_isOk hthere
  have hconfigured := Server.configuredIn_eq_ok.mpr ⟨path, hpath, hfile⟩
  obtain ⟨journal, hstart⟩ := start_of_loadIn (Server.loadIn_of_configuredIn hconfigured)
  exact ⟨t, journal, hfile, hstart⟩

theorem exists_start_oneWeapon (config : Config)
    (hpath : config.taxonomyPath = some "/weapons.toml") :
    ∃ t journal, Taxonomy.ofFileIn oneWeaponMachine.files "/weapons.toml" = .ok t ∧
      start config oneWeaponMachine =
        .ok ⟨⟨config, ⟨t, config.classifier⟩⟩, { oneWeaponMachine with journal }⟩ :=
  exists_start_of_isOk hpath (by decide +kernel)

def twoNationsFiles : FileSystem :=
  Machine.blank.files.set ["weapons.toml"] (some (.file (Utf8.encode
    ("version = '2'\n[[groups]]\nnation = 'germany'\nfaction = 'axis'\ninfantry = ['MP40']\n" ++
      "vehicles = ['TIGER I', 'MP40']\n[[groups]]\nnation = 'soviet_union'\n" ++
      "faction = 'allies'\nvehicles = ['T-34']\n"))))

def reloadRequest : Request := ⟨"POST", "/api/taxonomy/reload", [], []⟩

/-- A reload tells what the file has become, and fails once the file is taken away. -/
theorem reload_restarts_taken_away :
    ∃ site, start namedFile oneWeaponMachine = .ok site ∧
      ((site.run [.files twoNationsFiles]).2.ask reloadRequest).1.Gives 200 (.object
        [("version", .text "2"), ("totalWeapons", .integer 3), ("axisWeapons", .integer 2),
         ("alliesWeapons", .integer 1),
         ("groups", .list
           [.object [("nation", .text "germany"), ("faction", .text "axis"),
              ("infantry", .integer 1), ("vehicles", .integer 2)],
            .object [("nation", .text "soviet_union"), ("faction", .text "allies"),
              ("infantry", .integer 0), ("vehicles", .integer 1)]])]) ∧
      ((site.run [.files (.emptyAt [])]).2.ask reloadRequest).1.status = 400 := by
  obtain ⟨t, journal, -, hstart⟩ := exists_start_oneWeapon namedFile rfl
  have hr : reloadRequest.IsReload := by decide
  refine ⟨_, hstart, ?_, ?_⟩
  · have hmade : (Taxonomy.ofFileIn twoNationsFiles "/weapons.toml").map (fun t =>
        (t.version, t.size, t.count .axis, t.count .allies, t.groups)) =
        .ok ("2", 3, 2, 1, [⟨"germany", .axis, ["MP40"], ["TIGER I", "MP40"]⟩,
          ⟨"soviet_union", .allies, [], ["T-34"]⟩]) := by
      decide +kernel
    cases hfile : Taxonomy.ofFileIn twoNationsFiles "/weapons.toml" with
    | error e =>
      rw [hfile] at hmade
      cases hmade
    | ok now =>
      rw [hfile] at hmade
      simp only [Except.map, Except.ok.injEq, Prod.mk.injEq] at hmade
      obtain ⟨hversion, hsize, haxis, hallies, hgroups⟩ := hmade
      obtain ⟨-, htold, -⟩ :=
        (reload_restarts _ _ _ hstart [.files twoNationsFiles] reloadRequest).1 hr
      have hreport := htold "/weapons.toml" now rfl (accepts_iff.mpr hfile)
      rw [hversion, hsize, haxis, hallies, hgroups] at hreport
      exact hreport
  · obtain ⟨hsucceeds, -, hfails⟩ :=
      (reload_restarts _ _ _ hstart [.files (.emptyAt [])] reloadRequest).1 hr
    have hgone : (Taxonomy.ofFileIn (.emptyAt []) "/weapons.toml").isOk = false := by
      decide +kernel
    apply hfails
    intro h200
    obtain ⟨path, t', hpath, haccepts⟩ := hsucceeds.mp h200
    have hpath : "/weapons.toml" = path := Option.some.inj hpath
    rw [accepts_iff, ← hpath] at haccepts
    have hfile : Taxonomy.ofFileIn (.emptyAt []) "/weapons.toml" = .ok t' := haccepts
    simp [hfile, Except.isOk, Except.toBool] at hgone

end Site

end Allegiance.Http
