import Allegiance.Command.Run
import Allegiance.Proofs.Fields
import Allegiance.Proofs.RelativePaths
import Allegiance.Proofs.Reload
import Allegiance.Proofs.Threshold

namespace Allegiance

theorem Config.ratioAbove_of_validate {config : Config} (h : config.validate = .ok ()) :
    config.classifier.RatioAbove 0 := by
  refine Tuning.ratioAbove_zero_iff.mpr ?_
  unfold validate at h
  split at h
  · cases h
  · rename_i hratio
    simpa only [Bool.not_eq_true', Bool.not_eq_false] using hratio

namespace Command

theorem orFail_run {ε α : Type} {work : ExceptT ε (StateM Machine) α} {machine after : Machine}
    {r : Except ε α} (h : work.run.run machine = (r, after)) (wrap : ε → Failure) :
    (orFail wrap work).run.run machine = (r.mapError wrap, after) := by
  unfold orFail
  rw [run_lift_bind, h]
  cases r <;> rfl

theorem orFail_onlyLooks {ε α : Type} {work : ExceptT ε (StateM Machine) α}
    {f : FileSystem → Instant → Except ε α} (h : OnlyLooks work.run f) (wrap : ε → Failure) :
    OnlyLooks (orFail wrap work).run (fun files clock => (f files clock).mapError wrap) := by
  refine h.lift.bindExcept (g := fun r _ _ => r.mapError wrap) ?_
  intro r
  cases r with
  | error e => exact .throw _
  | ok x => exact .ok x

/-- The tuning of the settings, but for the policy if the old one is asked for. -/
def tuningFor (config : Config) (legacyZeroKills : Bool) : Tuning where
  thresholdRatio := config.classifier.thresholdRatio
  zeroKills := if legacyZeroKills then .legacy else config.classifier.zeroKills

/-- The command looks at the settings, the taxonomy and the statistics and labels the players before
it writes anything. -/
def labelFile (settings input : String) (taxonomy : Option String) (legacyZeroKills : Bool) :
    CommandM (StateM Machine) ClassifiedMatch := do
  let config ← orFail (Failure.config settings) (Config.load settings)
  let t ← orFail Failure.classifierTaxonomy (Taxonomy.load (taxonomy <|> config.taxonomyPath))
  let stats ← orFail (Failure.statistics input) (readMatch input)
  ((Classifier.mk t (tuningFor config legacyZeroKills)).classifyNow stats :
    StateM Machine ClassifiedMatch)

def deliver (input : String) (output : Option String) (result : ClassifiedMatch) :
    CommandM (StateM Machine) Outcome :=
  match output with
  | some path => do
    orFail (Failure.result path) (writeClassifiedFile path result)
    pure (.done [] (summaryText result))
  | none => do
    let format ← orFail Failure.format (m := StateM Machine) (FileFormat.ofPath input : Except _ _)
    pure (.done (result.written format) (summaryText result))

/-- The command looks first, and hands over then. The settings of the log make no difference. -/
theorem invocation_run_eq {i : Invocation} {input : String} {output taxonomy : Option String}
    {legacyZeroKills : Bool}
    (h : i.action = .classify input output taxonomy legacyZeroKills) :
    (i.run : CommandM (StateM Machine) Outcome) =
      labelFile i.config input taxonomy legacyZeroKills >>= deliver input output := by
  simp only [Invocation.run, h, act, classifyFile, labelFile, bind_assoc]
  cases legacyZeroKills <;> rfl

def resultOf (config : Config) (legacyZeroKills : Bool) (t : Taxonomy) (stats : MatchStats)
    (clock : Instant) : ClassifiedMatch :=
  (Classifier.mk t (tuningFor config legacyZeroKills)).classifyMatch clock stats

/-- The result that the files have in them. -/
def labelledIn (settings input : String) (taxonomy : Option String) (legacyZeroKills : Bool)
    (files : FileSystem) (clock : Instant) : Except Failure ClassifiedMatch := do
  let config ← (Config.loadIn files settings).mapError (Failure.config settings)
  let t ← (Taxonomy.loadIn files (taxonomy <|> config.taxonomyPath)).mapError
    Failure.classifierTaxonomy
  let stats ← (matchIn files input).mapError (Failure.statistics input)
  pure (resultOf config legacyZeroKills t stats clock)

theorem labelFile_onlyLooks (settings input : String) (taxonomy : Option String)
    (legacyZeroKills : Bool) :
    OnlyLooks (labelFile settings input taxonomy legacyZeroKills).run
      (labelledIn settings input taxonomy legacyZeroKills) :=
  (orFail_onlyLooks (Config.load_onlyLooks settings) _).bindExcept fun config =>
    (orFail_onlyLooks (Taxonomy.load_onlyLooks _) _).bindExcept fun t =>
      (orFail_onlyLooks (readMatch_onlyLooks input) _).bindExcept fun stats =>
        (Http.Server.classifyNow_onlyLooks (.mk t (tuningFor config legacyZeroKills)) stats).lift

theorem labelledIn_eq_ok_iff {settings input : String} {taxonomy : Option String}
    {legacyZeroKills : Bool} {files : FileSystem} {clock : Instant} {result : ClassifiedMatch} :
    labelledIn settings input taxonomy legacyZeroKills files clock = .ok result ↔
      ∃ config t stats, Config.loadIn files settings = .ok config ∧
        Taxonomy.loadIn files (taxonomy <|> config.taxonomyPath) = .ok t ∧
        matchIn files input = .ok stats ∧
        resultOf config legacyZeroKills t stats clock = result := by
  simp only [labelledIn, Document.bind_eq_ok_iff, Document.mapError_eq_ok_iff, pure, Except.pure,
    Except.ok.injEq]
  constructor
  · rintro ⟨config, hconfig, t, ht, stats, hstats, rfl⟩
    exact ⟨config, t, stats, hconfig, ht, hstats, rfl⟩
  · rintro ⟨config, t, stats, hconfig, ht, hstats, rfl⟩
    exact ⟨config, hconfig, t, ht, stats, hstats, rfl⟩

section Deliver

variable {input path : String} {format : FileFormat} {e : StorageFailure}

theorem deliver_printed (h : FileFormat.ofPath input = .ok format) (result : ClassifiedMatch)
    (machine : Machine) : (deliver input none result).run.run machine =
      (.ok (.done (result.written format) (summaryText result)), machine) := by
  rw [deliver, h]
  rfl

theorem deliver_unsupported (h : FileFormat.ofPath path = .error e) (result : ClassifiedMatch)
    (machine : Machine) : (deliver input (some path) result).run.run machine =
      (.error (.result path e), machine) :=
  run_bind_of_error (orFail_run (writeClassifiedFile_unsupported h result machine) _)

theorem deliver_written (input : String) (h : FileFormat.ofPath path = .ok format)
    {result : ClassifiedMatch} {machine after : Machine} {written : Except StorageFailure Unit}
    (hreplace : (replaceFile path (result.written format) :
      StorageM (StateM Machine) Unit).run.run machine = (written, after)) (journal : Array Event) :
    ∃ journal', (deliver input (some path) result).run.run { machine with journal } =
      ((written.map (fun _ => Outcome.done [] (summaryText result))).mapError (Failure.result path),
        { after with journal := journal' }) := by
  obtain ⟨written', after', journal', hreplace', hwrite⟩ :=
    writeClassifiedFile_run h result { machine with journal }
  rw [replaceFile_journal hreplace journal] at hreplace'
  cases hreplace'
  refine ⟨journal', ?_⟩
  have hfail := orFail_run hwrite (Failure.result path)
  cases written with
  | error e => exact run_bind_of_error hfail
  | ok _ => exact run_bind_of_ok hfail

end Deliver

def asked? (words : List String) : Option Invocation :=
  match scan .program .empty false words with
  | .ok (.work g) => (Invocation.ofGiven g).toOption
  | _ => none

theorem asked?_eq_some {words : List String} {i : Invocation} (h : asked? words = some i) :
    ∃ g, scan .program .empty false words = .ok (.work g) ∧ Invocation.ofGiven g = .ok i := by
  unfold asked? at h
  split at h
  · rename_i g hscan
    refine ⟨g, hscan, ?_⟩
    cases hgiven : Invocation.ofGiven g with
    | error why => simp [hgiven, Except.toOption] at h
    | ok j => simpa [hgiven, Except.toOption] using h
  · cases h

def settled : Except Failure Outcome → Outcome
  | .ok outcome => outcome
  | .error f => .failed f

theorem run_asked {words : List String} {i : Invocation} (h : asked? words = some i)
    {machine after : Machine} {result : Except Failure Outcome}
    (hrun : (i.run : CommandM (StateM Machine) Outcome).run.run machine = (result, after)) :
    (run words : StateM Machine Outcome).run machine = (settled result, after) := by
  obtain ⟨g, hscan, hgiven⟩ := asked?_eq_some h
  simp only [run, hscan, hgiven, StateT.run_bind, hrun]
  cases result <;> rfl

/-- What has to be there before anything is written: settings, a taxonomy, statistics, and a name of
the output file that asks for a format. -/
structure Prepared (machine : Machine) (settings input : String) (output taxonomy : Option String)
    (config : Config) (t : Taxonomy) (stats : MatchStats) : Prop where
  hasConfig : ((Config.load settings :
    ExceptT ConfigFailure (StateM Machine) Config).run.run machine).1 = .ok config
  hasTaxonomy : ((Taxonomy.load (taxonomy <|> config.taxonomyPath) :
    ExceptT LoadFailure (StateM Machine) Taxonomy).run.run machine).1 = .ok t
  hasStats : ((readMatch input :
    StorageM (StateM Machine) MatchStats).run.run machine).1 = .ok stats
  hasFormat : ∀ path, output = some path → ∃ format, FileFormat.ofPath path = .ok format

/-- A result is handed over: printed in the format of the input, or in the output file, in the
format of that. -/
def Delivered (input : String) (output : Option String) (result : ClassifiedMatch)
    (printed : Bytes) (files : FileSystem) : Prop :=
  match output with
  | none => ∃ format, FileFormat.ofPath input = .ok format ∧ printed = result.written format
  | some path => ∃ format, FileFormat.ofPath path = .ok format ∧ printed = [] ∧
      files.read path = .ok (result.written format)

def finalWrite (output : Option String) (result : ClassifiedMatch) (machine : Machine) :
    Except StorageFailure Unit :=
  match output with
  | none => .ok ()
  | some path => ((writeClassifiedFile path result :
      StorageM (StateM Machine) Unit).run.run machine).1

/-- Whether all files stay, but for the output. -/
def Spared (output : Option String) (before after : FileSystem) : Prop :=
  match output with
  | none => after = before
  | some path => FileSystem.Rewritten path before after

/-- The files as paths in settings see them: a relative path starts at the directory that the
settings lie in. -/
def SeenFrom (files : FileSystem) (settings path : String) (seen : FileSystem) : Prop :=
  match Path.isAbsolute path, Path.parent? settings with
  | false, some directory =>
    ∃ place, files.findDirectory directory = .ok place ∧ seen = { files with start := place }
  | _, _ => seen = files

/-- The taxonomy of a command: the one of the file that it names, or else of the file that the
settings name, or the built-in one where neither names any. -/
inductive Chosen (files : FileSystem) (settings : String) :
    Option String → Option String → Taxonomy → Prop
  | named {path : String} {told : Option String} {t : Taxonomy} :
    Taxonomy.FoundAt files (some path) t → Chosen files settings (some path) told t
  | told {path : String} {seen : FileSystem} {t : Taxonomy} :
    SeenFrom files settings path seen → Taxonomy.FoundAt seen (some path) t →
      Chosen files settings none (some path) t
  | builtin {t : Taxonomy} : Taxonomy.builtin = .ok t → Chosen files settings none none t

section Classify

variable {words : List String} {i : Invocation} {input : String} {output taxonomy : Option String}
  {legacyZeroKills : Bool} {machine : Machine} {config : Config} {t : Taxonomy} {stats : MatchStats}

/-- All is prepared if the files have it, and the output asks for a format. -/
theorem prepared_iff : Prepared machine i.config input output taxonomy config t stats ↔
    Config.loadIn machine.files i.config = .ok config ∧
    Taxonomy.loadIn machine.files (taxonomy <|> config.taxonomyPath) = .ok t ∧
    matchIn machine.files input = .ok stats ∧
    ∀ path, output = some path → ∃ format, FileFormat.ofPath path = .ok format := by
  have hconfig := (Config.load_onlyLooks i.config).result machine
  have htaxonomy := (Taxonomy.load_onlyLooks (taxonomy <|> config.taxonomyPath)).result machine
  have hstats := (readMatch_onlyLooks input).result machine
  constructor
  · intro h
    exact ⟨hconfig ▸ h.hasConfig, htaxonomy ▸ h.hasTaxonomy, hstats ▸ h.hasStats, h.hasFormat⟩
  · rintro ⟨hc, ht, hs, hformat⟩
    exact ⟨hconfig.trans hc, htaxonomy.trans ht, hstats.trans hs, hformat⟩

theorem run_error (h : asked? words = some i)
    (haction : i.action = .classify input output taxonomy legacyZeroKills) {f : Failure}
    (hf : labelledIn i.config input taxonomy legacyZeroKills machine.files machine.clock =
      .error f) :
    ∃ journal, (run words : StateM Machine Outcome).run machine =
      (.failed f, { machine with journal }) := by
  obtain ⟨journal, hrun⟩ :=
    (labelFile_onlyLooks i.config input taxonomy legacyZeroKills).run_bind_error hf
  exact ⟨journal, run_asked h (invocation_run_eq haction ▸ hrun)⟩

theorem run_ok (h : asked? words = some i)
    (haction : i.action = .classify input output taxonomy legacyZeroKills)
    {result : ClassifiedMatch}
    (hresult : labelledIn i.config input taxonomy legacyZeroKills machine.files machine.clock =
      .ok result) :
    ∃ journal, ∀ handed after,
      (deliver input output result).run.run { machine with journal } = (handed, after) →
        (run words : StateM Machine Outcome).run machine = (settled handed, after) := by
  obtain ⟨journal, hrun⟩ :=
    (labelFile_onlyLooks i.config input taxonomy legacyZeroKills).run_bind_ok hresult
  refine ⟨journal, ?_⟩
  intro handed after hdeliver
  exact run_asked h (invocation_run_eq haction ▸ hrun.trans hdeliver)

theorem run_unprepared (h : asked? words = some i)
    (haction : i.action = .classify input output taxonomy legacyZeroKills)
    (hmissing : ∀ config t stats,
      ¬ Prepared machine i.config input output taxonomy config t stats) :
    ∃ f journal, (run words : StateM Machine Outcome).run machine =
      (.failed f, { machine with journal }) := by
  cases hresult : labelledIn i.config input taxonomy legacyZeroKills machine.files
      machine.clock with
  | error f => exact ⟨f, run_error h haction hresult⟩
  | ok result =>
    obtain ⟨config, t, stats, hconfig, ht, hstats, rfl⟩ := labelledIn_eq_ok_iff.mp hresult
    have hformat : ¬ ∀ path, output = some path → ∃ format, FileFormat.ofPath path = .ok format :=
      fun hformat => hmissing config t stats (prepared_iff.mpr ⟨hconfig, ht, hstats, hformat⟩)
    push Not at hformat
    obtain ⟨path, rfl, hnone⟩ := hformat
    cases hpath : FileFormat.ofPath path with
    | ok format => exact absurd hpath (hnone format)
    | error e =>
      obtain ⟨journal, hdone⟩ := run_ok h haction hresult
      exact ⟨_, journal, hdone _ _ (deliver_unsupported hpath _ _)⟩

theorem format_of_matchIn {files : FileSystem} (h : matchIn files input = .ok stats) :
    ∃ format, FileFormat.ofPath input = .ok format := by
  obtain ⟨format, hformat, -⟩ := Document.bind_eq_ok_iff.mp h
  exact ⟨format, hformat⟩

/-- Where everything is there, the result is handed over, unless it cannot be written. -/
theorem run_prepared (h : asked? words = some i)
    (haction : i.action = .classify input output taxonomy legacyZeroKills)
    (hprepared : Prepared machine i.config input output taxonomy config t stats)
    {result : ClassifiedMatch}
    (hresult : resultOf config legacyZeroKills t stats machine.clock = result) :
    (finalWrite output result machine = .ok () →
      ∃ printed after, (run words : StateM Machine Outcome).run machine =
          (.done printed (summaryText result), after) ∧
        Delivered input output result printed after.files ∧
        Spared output machine.files after.files) ∧
    (∀ e, finalWrite output result machine = .error e →
      ∃ path after, output = some path ∧ (run words : StateM Machine Outcome).run machine =
        (.failed (.result path e), after)) := by
  obtain ⟨hconfig, ht, hstats, hformat⟩ := prepared_iff.mp hprepared
  obtain ⟨journal, hrun⟩ := run_ok h haction
    (labelledIn_eq_ok_iff.mpr ⟨config, t, stats, hconfig, ht, hstats, hresult⟩)
  cases output with
  | none =>
    obtain ⟨format, hinput⟩ := format_of_matchIn hstats
    constructor
    · intro _
      exact ⟨_, _, hrun _ _ (deliver_printed hinput result _), ⟨format, hinput, rfl⟩, rfl⟩
    · intro e he
      cases he
  | some path =>
    obtain ⟨format, hpath⟩ := hformat path rfl
    -- The file is written after the notes of the work before, which make no difference to it.
    obtain ⟨written, after, journal', hreplace, hwrite⟩ :=
      writeClassifiedFile_run hpath result machine
    obtain ⟨journal'', hdeliver⟩ := deliver_written input hpath hreplace journal
    have hdone := hrun _ _ hdeliver
    have hfinal : finalWrite (some path) result machine = written := by rw [finalWrite, hwrite]
    constructor
    · intro hok
      have hok : written = .ok () := hfinal.symm.trans hok
      subst hok
      have hread := (read_of_replaceFile hreplace).2
      have hspared := rewritten_of_replaceFile hreplace
      exact ⟨_, _, hdone, ⟨format, hpath, rfl, hread⟩, hspared⟩
    · intro e he
      have he : written = .error e := hfinal.symm.trans he
      subst he
      exact ⟨path, _, rfl, hdone⟩

/-- A command that is done had everything it needs, and has handed its result over. -/
theorem exists_prepared (h : asked? words = some i)
    (haction : i.action = .classify input output taxonomy legacyZeroKills) {printed : Bytes}
    {notice : String} {after : Machine}
    (hrun : (run words : StateM Machine Outcome).run machine = (.done printed notice, after)) :
    ∃ config t stats, Prepared machine i.config input output taxonomy config t stats ∧
      Delivered input output (resultOf config legacyZeroKills t stats machine.clock) printed
        after.files := by
  by_cases hmissing : ∀ config t stats,
      ¬ Prepared machine i.config input output taxonomy config t stats
  · obtain ⟨f, journal, hfailed⟩ := run_unprepared h haction hmissing
    cases hfailed.symm.trans hrun
  · push Not at hmissing
    obtain ⟨config, t, stats, hprepared⟩ := hmissing
    refine ⟨config, t, stats, hprepared, ?_⟩
    obtain ⟨hdone, hfailed⟩ := run_prepared h haction hprepared rfl
    cases hwrite : finalWrite output (resultOf config legacyZeroKills t stats machine.clock)
        machine with
    | ok _ =>
      obtain ⟨printed', after', hrun', hdelivered, -⟩ := hdone hwrite
      cases hrun'.symm.trans hrun
      exact hdelivered
    | error e =>
      obtain ⟨path, after', -, hrun'⟩ := hfailed e hwrite
      cases hrun'.symm.trans hrun

/-- What is read from the path that the settings of a file come to is read from the path that they
tell, as seen from there. -/
theorem exists_seenFrom {files : FileSystem} {settings path : String} {told : Config}
    (hpath : told.taxonomyPath = some path)
    (h : Taxonomy.FoundAt files (told.relativeTo settings).taxonomyPath t) :
    ∃ seen, SeenFrom files settings path seen ∧ Taxonomy.FoundAt seen (some path) t := by
  unfold SeenFrom
  unfold Config.relativeTo at h
  simp only [hpath] at h
  cases hparent : Path.parent? settings with
  | none =>
    rw [hparent] at h
    exact ⟨files, by split <;> trivial, hpath ▸ h⟩
  | some directory =>
    cases habsolute : Path.isAbsolute path with
    | true => exact ⟨files, rfl, by simpa [hparent, habsolute, hpath] using h⟩
    | false =>
      simp only [hparent, habsolute, Bool.false_eq_true, ↓reduceIte] at h
      obtain ⟨b, text, hread, hdecode, ht⟩ := h
      obtain ⟨place, hplace, hread⟩ := FileSystem.read_join habsolute hread
      exact ⟨_, ⟨place, hplace, rfl⟩, b, text, hread, hdecode, ht⟩

theorem Chosen.of_loadIn {files : FileSystem} {settings : String} {told : Config}
    (h : Taxonomy.loadIn files (taxonomy <|> (told.relativeTo settings).taxonomyPath) = .ok t) :
    Chosen files settings taxonomy told.taxonomyPath t := by
  have h := Taxonomy.loadIn_eq_ok_iff.mp h
  cases taxonomy with
  | some path => exact .named h
  | none =>
    cases hpath : told.taxonomyPath with
    | none =>
      have hnone : (told.relativeTo settings).taxonomyPath = none := by
        simp [Config.relativeTo, hpath]
      rw [hnone] at h
      exact .builtin h
    | some path =>
      obtain ⟨seen, hseen, hfound⟩ := exists_seenFrom hpath h
      exact .told hseen hfound

end Classify

def oneMatchMachine : Machine :=
  { Http.Site.oneWeaponMachine with
    files := Http.Site.oneWeaponMachine.files.set ["match.json"] (some (.file (Utf8.encode
      "[null,[\x7b\"playerId\":\"7\",\"totalKills\":2,\"weaponUsage\":\x7b\"MP40\":2\x7d\x7d]]"))) }

def oneMatchWords : List String :=
  ["classify", "--input", "/match.json", "--taxonomy", "/weapons.toml"]

def oneMatchInvocation : Invocation :=
  ⟨"./config.toml", none, false, .classify "/match.json" none (some "/weapons.toml") false⟩

end Command

end Allegiance
