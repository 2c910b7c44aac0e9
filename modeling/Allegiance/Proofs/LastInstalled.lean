import Allegiance.Proofs.Snapshots

namespace Allegiance.Http

/-- A reload reads the file at one moment and installs what it has read at a later one; nothing
makes reloads install in the order in which they have read. -/
structure Finding where
  number : Nat
  taxonomy : Taxonomy

def Finding.classifier (config : Config) (f : Finding) : Classifier :=
  ⟨f.taxonomy, config.classifier⟩

def Flight.finding? (number : Nat) : Flight → Option Finding
  | .reloading _ t => some ⟨number, t⟩
  | .answering .. | .over => none

@[simp] theorem Flight.finding?_over (number : Nat) : Flight.over.finding? number = none := rfl

namespace Traffic

def hand (flights : List Flight) (number : Nat) : Option Finding :=
  flights[number]?.bind (Flight.finding? number)

/-- All that was found and is not installed yet. -/
def found (flights : List Flight) : List Finding :=
  flights.zipIdx.filterMap (fun p => p.1.finding? p.2)

def read? (s : Traffic) (m : Move) : Option Finding := hand (s.step m).2.flights s.flights.length

def installed? (s : Traffic) : Move → Option Finding
  | .swap number => hand s.flights number
  | _ => none

def reads : Traffic → List Move → List Finding := along read?

def installs : Traffic → List Move → List Finding := along installed?

theorem reads_append (s : Traffic) (moves later : List Move) :
    s.reads (moves ++ later) = s.reads moves ++ (s.after moves).reads later :=
  along_append read? s moves later

theorem installs_append (s : Traffic) (moves later : List Move) :
    s.installs (moves ++ later) = s.installs moves ++ (s.after moves).installs later :=
  along_append installed? s moves later

theorem reads_cons (s : Traffic) (m : Move) (moves : List Move) :
    s.reads (m :: moves) = (s.read? m).toList ++ (s.step m).2.reads moves := rfl

theorem installs_cons (s : Traffic) (m : Move) (moves : List Move) :
    s.installs (m :: moves) = (s.installed? m).toList ++ (s.step m).2.installs moves := rfl

variable {s s' : Traffic} {m : Move} {number : Nat} {f : Finding} {flight : Flight}
  {flights : List Flight}

theorem hand_eq_some : hand flights number = some f ↔
    ∃ r, flights[number]? = some (.reloading r f.taxonomy) ∧ f.number = number := by
  obtain ⟨n, t⟩ := f
  cases hf : flights[number]? with
  | none => simp [hand, hf]
  | some flight => cases flight <;> simp [hand, hf, Flight.finding?, eq_comm, and_comm]

theorem installed?_swap {r : Request} {t : Taxonomy}
    (h : s.flights[number]? = some (.reloading r t)) :
    s.installed? (.swap number) = some ⟨number, t⟩ := hand_eq_some.mpr ⟨r, h, rfl⟩

theorem found_concat (flights : List Flight) (flight : Flight) :
    found (flights ++ [flight]) = found flights ++ (flight.finding? flights.length).toList := by
  rw [found, List.zipIdx_append, List.filterMap_append, ← found]
  cases h : flight.finding? flights.length with
  | none => simp [h]
  | some f => simp [h]

/-- What a request has found is no longer there once the request is over. -/
theorem found_set (h : flights[number]? = some flight) :
    (found flights).Perm
      ((flight.finding? number).toList ++ found (flights.set number .over)) := by
  obtain ⟨hlt, hflight⟩ := List.getElem?_eq_some_iff.mp h
  obtain ⟨before, after, hsplit, hlength, hset⟩ : ∃ before after,
      flights = before ++ flights[number] :: after ∧ before.length = number ∧
        flights.set number .over = before ++ .over :: after := List.exists_of_set hlt
  rw [hflight] at hsplit
  rw [hset, hsplit]
  simp only [found, List.zipIdx_append, List.zipIdx_cons, List.filterMap_append,
    List.filterMap_cons, Nat.zero_add, hlength, Flight.finding?_over]
  cases flight.finding? number with
  | none => exact List.Perm.refl _
  | some f => exact List.perm_middle

theorem step_of_installed? (h : s.installed? m = some f) : ∃ r,
    m = .swap f.number ∧ s.flights[f.number]? = some (.reloading r f.taxonomy) ∧
    s.step m =
      (some ⟨r, Server.share s.server.config (.json 200 (Server.taxonomyReport f.taxonomy))⟩,
        { s with
          server := s.server.install f.taxonomy
          flights := s.flights.set f.number .over }) := by
  cases m with
  | swap number =>
    obtain ⟨r, hflight, rfl⟩ := hand_eq_some.mp h
    exact ⟨r, rfl, hflight, by simp only [step, hflight]⟩
  | _ => cases h

/-- What a reload has read, the configured file holds at that moment. -/
theorem step_of_read? (h : s.read? m = some f) : ∃ r,
    m = .read r ∧ r.IsReload ∧ f.number = s.flights.length ∧
    Server.configuredIn s.server.config s.machine.files = .ok f.taxonomy ∧
    (s.step m).2.flights = s.flights ++ [.reloading r f.taxonomy] := by
  obtain ⟨r, hflight, hnumber⟩ := hand_eq_some.mp h
  have hnone : s.flights[s.flights.length]? = none := List.getElem?_eq_none (Nat.le_refl _)
  rcases (does_step s m).flight hflight nofun with hflight' | ⟨-, hbegins⟩
  · rw [hnone] at hflight'
    cases hflight'
  · cases m with
    | read r' =>
      obtain ⟨rfl, hr, hread⟩ := hbegins
      refine ⟨r, rfl, hr, hnumber, hread, ?_⟩
      obtain ⟨_, hstep⟩ := step_read s hr hread
      rw [hstep]
    | _ => exact hbegins.elim

theorem Does.found {reply : Option Reply} (h : Does s m reply s')
    (hinstalled : s.installed? m = none) (hread : hand s'.flights s.flights.length = none) :
    (found s.flights).Perm (found s'.flights) := by
  cases h with
  | nothing | fail | files | clock => exact List.Perm.refl _
  | takeUp =>
    rw [found_concat]
    exact List.Perm.of_eq (List.append_nil _).symm
  | answer hflight => exact found_set hflight
  | read => simp [hand, Flight.finding?] at hread
  | swap hflight => cases hinstalled.symm.trans (installed?_swap hflight)

theorem Does.server_eq {reply : Option Reply} (h : Does s m reply s')
    (hinstalled : s.installed? m = none) : s'.server = s.server := by
  cases h with
  | swap hflight => cases hinstalled.symm.trans (installed?_swap hflight)
  | _ => rfl

/-- A reload that is answered with success has installed what it tells of, unless somebody else was
to answer it. -/
theorem Does.succeeded {reply : Reply} (h : Does s m (some reply) s')
    (h200 : reply.response.status = 200) :
    (∃ f, s.installed? m = some f ∧ reply.response =
      Server.share s.server.config (.json 200 (Server.taxonomyReport f.taxonomy))) ∨
    ∃ (number : Nat) (c : Classifier),
      s.flights[number]? = some (.answering reply.request c) := by
  cases h with
  | answer hflight => exact .inr ⟨_, _, hflight⟩
  | fail _ hread =>
    have hstatus := Server.configuredIn_error hread
    rw [Server.share_status] at h200
    exact absurd (hstatus.symm.trans h200) (by decide)
  | swap hflight => exact .inl ⟨_, installed?_swap hflight, rfl⟩

theorem Does.length_le {reply : Option Reply} (h : Does s m reply s') :
    s.flights.length ≤ s'.flights.length := by
  cases h <;> simp

/-- What was found before a move or is read with it is installed by it, or still there after it. -/
theorem found_step (s : Traffic) (m : Move) :
    (found s.flights ++ (s.read? m).toList).Perm
      ((s.installed? m).toList ++ found (s.step m).2.flights) := by
  cases hinstalled : s.installed? m with
  | some f =>
    obtain ⟨r, rfl, hflight, hstep⟩ := step_of_installed? hinstalled
    have hread : s.read? (.swap f.number) = none := by
      simp [read?, hand, hstep]
    rw [hread, hstep, Option.toList_none, List.append_nil]
    exact found_set hflight
  | none =>
    cases hread : s.read? m with
    | some f =>
      obtain ⟨r, -, -, hnumber, -, hflights⟩ := step_of_read? hread
      rw [hflights, found_concat, ← hnumber]
      exact List.Perm.refl _
    | none =>
      rw [Option.toList_none, List.append_nil]
      exact (does_step s m).found hinstalled hread

/-- The classifier is that of what is installed, or stays. -/
theorem classifier_step (s : Traffic) (m : Move) : (s.step m).2.server.classifier =
    ((s.installed? m).map (Finding.classifier s.server.config)).getD s.server.classifier := by
  cases hinstalled : s.installed? m with
  | some f =>
    obtain ⟨r, rfl, -, hstep⟩ := step_of_installed? hinstalled
    rw [hstep]
    rfl
  | none =>
    rw [(does_step s m).server_eq hinstalled]
    rfl

theorem found_after (s : Traffic) (moves : List Move) :
    (found s.flights ++ s.reads moves).Perm
      (s.installs moves ++ found (s.after moves).flights) := by
  induction moves generalizing s with
  | nil => exact List.Perm.of_eq (List.append_nil _)
  | cons m rest ih =>
    calc List.Perm (found s.flights ++ s.reads (m :: rest))
          (found s.flights ++ (s.read? m).toList ++ (s.step m).2.reads rest) :=
        List.Perm.of_eq (List.append_assoc _ _ _).symm
      List.Perm _ ((s.installed? m).toList ++ found (s.step m).2.flights ++
          (s.step m).2.reads rest) := (found_step s m).append_right _
      List.Perm _ ((s.installed? m).toList ++ (found (s.step m).2.flights ++
          (s.step m).2.reads rest)) := List.Perm.of_eq (List.append_assoc _ _ _)
      List.Perm _ ((s.installed? m).toList ++ ((s.step m).2.installs rest ++
          found (s.after (m :: rest)).flights)) := (ih _).append_left _
      List.Perm _ (s.installs (m :: rest) ++ found (s.after (m :: rest)).flights) :=
        List.Perm.of_eq (List.append_assoc _ _ _).symm

/-- The last one to install has the installed classifier. -/
theorem classifier_after (s : Traffic) (moves : List Move) :
    (s.after moves).server.classifier =
      ((s.installs moves).getLast?.map (Finding.classifier s.server.config)).getD
        s.server.classifier := by
  induction moves using List.reverseRecOn with
  | nil => rfl
  | append_singleton moves m ih =>
    rw [after_concat, classifier_step, after_config, ih, installs_append, installs_cons]
    cases (s.after moves).installed? m with
    | none => simp [installs, along]
    | some f => simp [installs, along]

theorem length_after (s : Traffic) (moves : List Move) :
    s.flights.length ≤ (s.after moves).flights.length := by
  induction moves generalizing s with
  | nil => exact Nat.le_refl _
  | cons m rest ih => exact Nat.le_trans (does_step s m).length_le (ih (s.step m).2)

theorem length_le_number {moves : List Move} (h : f ∈ s.reads moves) :
    s.flights.length ≤ f.number := by
  obtain ⟨before, m, later, rfl, hread⟩ := mem_along.mp h
  obtain ⟨r, -, -, hnumber, -, -⟩ := step_of_read? hread
  rw [hnumber]
  exact length_after s before

/-- Reloads are numbered in the order in which they read. -/
theorem reads_inOrder (s : Traffic) (moves : List Move) :
    (s.reads moves).Pairwise (fun f g => f.number < g.number) := by
  induction moves generalizing s with
  | nil => exact List.Pairwise.nil
  | cons m rest ih =>
    rw [reads_cons]
    cases hread : s.read? m with
    | none => exact ih _
    | some f =>
      obtain ⟨r, -, -, hnumber, -, hflights⟩ := step_of_read? hread
      refine List.pairwise_cons.mpr ⟨?_, ih _⟩
      intro g hg
      have hlater := length_le_number hg
      rw [hflights, List.length_append, List.length_singleton] at hlater
      omega

/-- Whatever is installed in the end was installed by some move, or before them. -/
theorem classifier_after_cases (s : Traffic) (moves : List Move) :
    (s.after moves).server.classifier = s.server.classifier ∨
    ∃ g ∈ s.installs moves, (s.after moves).server.classifier = g.classifier s.server.config := by
  rw [classifier_after]
  cases hlast : (s.installs moves).getLast? with
  | none => exact .inl rfl
  | some g => exact .inr ⟨g, List.mem_of_getLast? hlast, rfl⟩

section History

variable {site : Site} {moves : List Move}

theorem installed_of_reply {m : Move} {reply : Reply}
    (h : (((ofSite site).after moves).step m).1 = some reply)
    (hr : reply.request.IsReload) (h200 : reply.response.status = 200) :
    ∃ f, ((ofSite site).after moves).installed? m = some f ∧ reply.response =
      Server.share site.server.config (.json 200 (Server.taxonomyReport f.taxonomy)) := by
  have hdoes := does_step ((ofSite site).after moves) m
  rw [h] at hdoes
  rcases hdoes.succeeded h200 with ⟨f, hinstalled, hresponse⟩ | ⟨number, c, hflight⟩
  · rw [after_config] at hresponse
    exact ⟨f, hinstalled, hresponse⟩
  · obtain ⟨_, m', _, _, _, hbegins⟩ := exists_begins hflight nofun
    cases m' with
    | takeUp r => exact absurd hr (hbegins.1 ▸ hbegins.2.1)
    | _ => exact hbegins.elim

/-- Nothing is under way that was not read since the start. -/
theorem reads_perm (site : Site) (moves : List Move) : ((ofSite site).reads moves).Perm
    ((ofSite site).installs moves ++ found ((ofSite site).after moves).flights) :=
  found_after (ofSite site) moves

theorem installs_eq_reads (hdone : found ((ofSite site).after moves).flights = [])
    (horder : ((ofSite site).installs moves).Pairwise (fun f g => f.number < g.number)) :
    (ofSite site).installs moves = (ofSite site).reads moves := by
  have hperm := reads_perm site moves
  rw [hdone, List.append_nil] at hperm
  refine hperm.symm.eq_of_pairwise ?_ horder (reads_inOrder _ _)
  intro f g _ _ hfg hgf
  omega

theorem reads_of_installs (h : f ∈ (ofSite site).installs moves) :
    f ∈ (ofSite site).reads moves :=
  (reads_perm site moves).mem_iff.mpr (List.mem_append_left _ h)

/-- What a reload has installed stays until somebody else installs. -/
theorem exists_installed_later {before : List Move} {m : Move} (later : List Move)
    (h : ((ofSite site).after before).installed? m = some f) :
    ∃ g ∈ (ofSite site).reads (before ++ m :: later),
      ((ofSite site).after (before ++ m :: later)).server.classifier =
        g.classifier site.server.config ∧
      (g = f ∨ g ∈ ((ofSite site).after (before ++ [m])).installs later) := by
  have hnow : ((ofSite site).after (before ++ [m])).server.classifier =
      f.classifier site.server.config := by
    rw [after_concat, classifier_step, h, after_config]
    rfl
  rw [List.append_cons before m later, after_append]
  rcases classifier_after_cases ((ofSite site).after (before ++ [m])) later with
    hstays | ⟨g, hg, hlater⟩
  · refine ⟨f, reads_of_installs ?_, hstays.trans hnow, .inl rfl⟩
    rw [installs_append, installs_append, installs_cons, h]
    simp
  · refine ⟨g, reads_of_installs ?_, ?_, .inr hg⟩
    · rw [installs_append]
      exact List.mem_append_right _ hg
    · rw [hlater, after_config]
      rfl

/-- Let any number of reloads be under way side by side while the file changes. All that was read is
installed, once, or still under way. The installed classifier is the one of the reload that was the
last to install; if all have installed, and in the order in which they have read, that is the last
to read. In any case a reload that is answered with success has installed what it tells of, and what
is installed in the end was read by the same reload or a later one, or else by one that had read
earlier and has installed later. -/
theorem last_install_wins (config : Config) (machine : Machine) (site : Site)
    (hstart : Site.start config machine = .ok site) (moves : List Move) :
    (∀ f ∈ (ofSite site).reads moves, ∃ before r later, moves = before ++ .read r :: later ∧
      r.IsReload ∧ ((ofSite site).after before).flights.length = f.number ∧
      ((Server.readConfigured config : ExceptT Failure (StateM Machine)
        Taxonomy).run.run ((ofSite site).after before).machine).1 = .ok f.taxonomy) ∧
    ((ofSite site).reads moves).Pairwise (fun f g => f.number < g.number) ∧
    ((ofSite site).reads moves).Perm
      ((ofSite site).installs moves ++ found ((ofSite site).after moves).flights) ∧
    ((ofSite site).after moves).server.classifier =
      (((ofSite site).installs moves).getLast?.map (Finding.classifier config)).getD
        site.server.classifier ∧
    (found ((ofSite site).after moves).flights = [] →
      ((ofSite site).installs moves).Pairwise (fun f g => f.number < g.number) →
      ((ofSite site).after moves).server.classifier =
        (((ofSite site).reads moves).getLast?.map (Finding.classifier config)).getD
          site.server.classifier) ∧
    (∀ before m later reply, moves = before ++ m :: later →
      (((ofSite site).after before).step m).1 = some reply → reply.request.IsReload →
      reply.response.status = 200 →
      ∃ f ∈ (ofSite site).reads moves, m = .swap f.number ∧
        reply.response =
          Server.share config (.json 200 (Server.taxonomyReport f.taxonomy)) ∧
        ∃ g ∈ (ofSite site).reads moves,
          ((ofSite site).after moves).server.classifier = g.classifier config ∧
          (f.number ≤ g.number ∨ (g.number < f.number ∧
            g ∈ ((ofSite site).after (before ++ [m])).installs later))) := by
  have hconfig : site.server.config = config := by
    obtain ⟨t, -, hserver⟩ := Site.runsOn_of_start hstart
    rw [hserver]
  subst hconfig
  have hlast := classifier_after (ofSite site) moves
  refine ⟨?_, reads_inOrder _ _, reads_perm site moves, hlast, ?_, ?_⟩
  · intro f hf
    obtain ⟨before, m, later, hmoves, hread⟩ := mem_along.mp hf
    obtain ⟨r, rfl, hr, hnumber, hfile, -⟩ := step_of_read? hread
    refine ⟨before, r, later, hmoves, hr, hnumber.symm, ?_⟩
    rw [(Server.readConfigured_onlyLooks _).result, ← hfile, after_config]
    rfl
  · intro hdone horder
    rw [← installs_eq_reads hdone horder]
    exact hlast
  · intro before m later reply hmoves hreply hr h200
    subst hmoves
    obtain ⟨f, hinstalled, hresponse⟩ := installed_of_reply hreply hr h200
    obtain ⟨r, hm, -, -⟩ := step_of_installed? hinstalled
    have hf : f ∈ (ofSite site).installs (before ++ m :: later) :=
      mem_along.mpr ⟨before, m, later, rfl, hinstalled⟩
    obtain ⟨g, hg, hclassifier, hlater⟩ := exists_installed_later later hinstalled
    refine ⟨f, reads_of_installs hf, hm, hresponse, g, hg, hclassifier, ?_⟩
    -- Who installed last had read this file, or another one before it or after it.
    rcases hlater with rfl | hlater
    · exact .inl (Nat.le_refl _)
    · rcases Nat.lt_or_ge g.number f.number with hlt | hle
      · exact .inr ⟨hlt, hlater⟩
      · exact .inl hle

end History

def overlapping (r : Request) (later : FileSystem) : List Move := [.read r, .files later, .read r]

theorem after_overlapping (site : Site) {r : Request} {later : FileSystem} {old new : Taxonomy}
    (hr : r.IsReload)
    (hold : Server.configuredIn site.server.config site.machine.files = .ok old)
    (hnew : Server.configuredIn site.server.config later = .ok new) :
    (ofSite site).reads (overlapping r later) = [⟨0, old⟩, ⟨1, new⟩] ∧
    (ofSite site).installs (overlapping r later) = [] ∧
    (ofSite site).replies (overlapping r later) = [] ∧
    ∃ machine, (ofSite site).after (overlapping r later) =
      ⟨site.server, machine, [.reloading r old, .reloading r new]⟩ := by
  obtain ⟨journal, hfirst⟩ := step_read (ofSite site) hr hold
  let first : Traffic := ⟨site.server, { site.machine with journal }, [.reloading r old]⟩
  let changed : Traffic := { first with machine := { first.machine with files := later } }
  obtain ⟨journal', hsecond⟩ := step_read changed hr hnew
  have hfirst : (ofSite site).step (.read r) = (none, first) := hfirst
  have hchange : first.step (.files later) = (none, changed) := rfl
  have hread : (ofSite site).read? (.read r) = some ⟨0, old⟩ := by
    rw [read?, hfirst]
    rfl
  have hnone : first.read? (.files later) = none := rfl
  have hread' : changed.read? (.read r) = some ⟨1, new⟩ := by
    rw [read?, hsecond]
    rfl
  refine ⟨?_, rfl, ?_, { changed.machine with journal := journal' }, ?_⟩
  · rw [overlapping, reads_cons, hread, hfirst, reads_cons, hnone, hchange, reads_cons, hread']
    rfl
  · rw [overlapping, replies, hfirst, replies, hchange, replies, hsecond]
    rfl
  · rw [overlapping, after_cons, hfirst, after_cons, hchange, after_cons, hsecond]
    rfl

/-- If they install in the other order, both are told of success and nothing is left under way, but
what is installed is the content that was there before the change. -/
theorem overtaken (site : Site) {r : Request} {later : FileSystem} {old new : Taxonomy}
    (hr : r.IsReload)
    (hold : Server.configuredIn site.server.config site.machine.files = .ok old)
    (hnew : Server.configuredIn site.server.config later = .ok new) :
    let moves := overlapping r later ++ [.swap 1, .swap 0]
    ((ofSite site).replies moves).map (fun reply => reply.response.status) = [200, 200] ∧
    found ((ofSite site).after moves).flights = [] ∧
    (ofSite site).reads moves = [⟨0, old⟩, ⟨1, new⟩] ∧
    ((ofSite site).after moves).server = site.server.install old := by
  intro moves
  obtain ⟨hreads, -, hreplies, machine, hafter⟩ := after_overlapping site hr hold hnew
  have hend : (ofSite site).after moves =
      ⟨site.server.install old, machine, [.over, .over]⟩ := by
    rw [after_append, hafter]
    rfl
  refine ⟨?_, by rw [hend]; rfl, ?_, by rw [hend]⟩
  · have hanswers : (⟨site.server, machine, [.reloading r old, .reloading r new]⟩ :
        Traffic).replies [.swap 1, .swap 0] =
        [⟨r, Server.share site.server.config (.json 200 (Server.taxonomyReport new))⟩,
          ⟨r, Server.share site.server.config (.json 200 (Server.taxonomyReport old))⟩] := rfl
    rw [replies_append, hreplies, hafter, hanswers, List.nil_append, List.map_cons, List.map_cons,
      Server.share_status, Server.share_status]
    rfl
  · rw [reads_append, hreads, hafter]
    rfl

def laterFiles : FileSystem :=
  Site.oneWeaponMachine.files.set ["weapons.toml"] (some (.file (Utf8.encode
    "version = '2'\n[[groups]]\nnation = 'germany'\nfaction = 'axis'\ninfantry = ['STG44']\n")))

theorem exists_of_version (files : FileSystem) (version : String)
    (h : (Taxonomy.ofFileIn files "/weapons.toml").toOption.map Taxonomy.version =
      some version) :
    ∃ t, Server.configuredIn Site.namedFile files = .ok t ∧ t.version = version := by
  cases hfile : Taxonomy.ofFileIn files "/weapons.toml" with
  | error e => simp [hfile, Except.toOption] at h
  | ok t =>
    refine ⟨t, Server.configuredIn_eq_ok.mpr ⟨_, rfl, hfile⟩, ?_⟩
    simpa [hfile, Except.toOption] using h

theorem exists_versions : ∃ site old new,
    Site.start Site.namedFile Site.oneWeaponMachine = .ok site ∧
    Server.configuredIn site.server.config site.machine.files = .ok old ∧ old.version = "1" ∧
    Server.configuredIn site.server.config laterFiles = .ok new ∧ new.version = "2" := by
  obtain ⟨old, hold, hone⟩ := exists_of_version Site.oneWeaponMachine.files "1"
    (by decide +kernel)
  obtain ⟨new, hnew, htwo⟩ := exists_of_version laterFiles "2" (by decide +kernel)
  obtain ⟨journal, hstart⟩ := Site.start_of_loadIn (Server.loadIn_of_configuredIn hold)
  exact ⟨_, old, new, hstart, hold, hone, hnew, htwo⟩

/-- The file has version 2 when it is read for the last time, both reloads are told of success, and
version 1 is installed. -/
theorem last_read_overtaken : ∃ site last,
    Site.start Site.namedFile Site.oneWeaponMachine = .ok site ∧
    ((ofSite site).replies (overlapping Site.reloadRequest laterFiles ++ [.swap 1, .swap 0])).map
      (fun reply => reply.response.status) = [200, 200] ∧
    found ((ofSite site).after
      (overlapping Site.reloadRequest laterFiles ++ [.swap 1, .swap 0])).flights = [] ∧
    ((ofSite site).reads
      (overlapping Site.reloadRequest laterFiles ++ [.swap 1, .swap 0])).getLast? = some last ∧
    last.taxonomy.version = "2" ∧
    ((ofSite site).after (overlapping Site.reloadRequest laterFiles ++
      [.swap 1, .swap 0])).server.classifier.taxonomy.version = "1" := by
  obtain ⟨site, old, new, hstart, hold, hone, hnew, htwo⟩ := exists_versions
  obtain ⟨hreplies, hdone, hreads, hserver⟩ := overtaken site (r := Site.reloadRequest) (by decide)
    hold hnew
  refine ⟨site, ⟨1, new⟩, hstart, hreplies, hdone, ?_, htwo, ?_⟩
  · rw [hreads]
    rfl
  · rw [hserver]
    exact hone

/-- In the order of reading, the version that was read last is installed. -/
theorem last_install_wins_inOrder : ∃ site,
    Site.start Site.namedFile Site.oneWeaponMachine = .ok site ∧
    ((ofSite site).after (overlapping Site.reloadRequest laterFiles ++
      [.swap 0, .swap 1])).server.classifier.taxonomy.version = "2" := by
  obtain ⟨site, old, new, hstart, hold, -, hnew, htwo⟩ := exists_versions
  obtain ⟨hreads, hinstalls, -, machine, hafter⟩ :=
    after_overlapping site (r := Site.reloadRequest) (by decide) hold hnew
  refine ⟨site, hstart, ?_⟩
  obtain ⟨-, -, -, -, hlast, -⟩ := last_install_wins _ _ _ hstart
    (overlapping Site.reloadRequest laterFiles ++ [.swap 0, .swap 1])
  rw [reads_append, hreads, installs_append, hinstalls, after_append, hafter] at hlast
  have horder : [Finding.mk 0 old, Finding.mk 1 new].Pairwise
      (fun f g => f.number < g.number) := by
    simp
  rw [after_append, hafter, hlast rfl horder]
  exact htwo

end Traffic

end Allegiance.Http
