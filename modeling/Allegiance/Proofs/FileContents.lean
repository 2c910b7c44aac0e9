import Mathlib.Data.List.Basic
import Allegiance.Config.Files
import Allegiance.Proofs.Looking
import Allegiance.Storage.Files
import Allegiance.Taxonomy.Files

namespace Allegiance

def textOf : Except FileError Bytes → Except FileError String
  | .error e => .error e
  | .ok content =>
    match Utf8.decode? content with
    | some s => .ok s
    | none => .error .notText

theorem readTextFile_onlyLooks (path : String) :
    OnlyLooks (readTextFile path) (fun files _ => textOf (files.read path)) := by
  refine (OnlyLooks.readFile path).bind (g := fun r _ _ => textOf r) ?_
  intro r
  cases r with
  | error e => exact .pure _
  | ok content =>
    simp only [textOf]
    cases Utf8.decode? content with
    | none => exact .pure _
    | some s => exact .pure _

namespace Taxonomy

def ofText : Except FileError String → Except LoadFailure Taxonomy
  | .error e => .error (.file e)
  | .ok text => (ofToml text).mapError .taxonomy

def ofFileIn (files : FileSystem) (path : String) : Except LoadFailure Taxonomy :=
  ofText (textOf (files.read path))

def loadIn (files : FileSystem) : Option String → Except LoadFailure Taxonomy
  | some path => ofFileIn files path
  | none => builtin.mapError (fun flaw => .taxonomy (.flawed flaw))

theorem noted_onlyLooks (made : Except TaxonomyFailure Taxonomy) :
    OnlyLooks (noted made).run (fun _ _ => made.mapError .taxonomy) := by
  cases made with
  | error cause => exact .throw _
  | ok t => exact (OnlyLooks.note t.remark).lift.bindExcept (fun _ => .ok t)

theorem ofFile_onlyLooks (path : String) :
    OnlyLooks (ofFile path).run (fun files _ => ofFileIn files path) := by
  refine (readTextFile_onlyLooks path).lift.bindExcept (g := fun r _ _ => ofText r) ?_
  intro r
  cases r with
  | error e => exact .throw _
  | ok text =>
    refine ((noted_onlyLooks (ofToml text)).bindExcept (fun t =>
      (OnlyLooks.note (.loadedTaxonomy t.version path t.size)).lift.bindExcept
        (fun _ => .ok t))).of_eq ?_
    intro _ _
    simp only [ofText]
    cases ofToml text with
    | error e => rfl
    | ok t => rfl

theorem load_onlyLooks (path : Option String) :
    OnlyLooks (load path).run (fun files _ => loadIn files path) := by
  cases path with
  | some path => exact ofFile_onlyLooks path
  | none =>
    refine ((noted_onlyLooks (builtin.mapError .flawed)).bindExcept (fun t =>
      (OnlyLooks.note (.builtinTaxonomy t.version t.size)).lift.bindExcept
        (fun _ => .ok t))).of_eq ?_
    intro _ _
    simp only [loadIn]
    cases builtin with
    | error flaw => rfl
    | ok t => rfl

/-- Only the configured file counts. -/
theorem loadIn_congr {files files' : FileSystem} {path : Option String}
    (h : ∀ p, path = some p → files'.read p = files.read p) :
    loadIn files' path = loadIn files path := by
  cases path with
  | none => rfl
  | some p => simp only [loadIn, ofFileIn, h p rfl]

/-- A taxonomy is the one that a named file holds, and the built-in one only if no file is named. -/
def FoundAt (files : FileSystem) : Option String → Taxonomy → Prop
  | some path, t =>
    ∃ b text, files.read path = .ok b ∧ Utf8.decode? b = some text ∧ ofToml text = .ok t
  | none, t => builtin = .ok t

theorem ofFileIn_eq_ok_iff {files : FileSystem} {path : String} {t : Taxonomy} :
    ofFileIn files path = .ok t ↔ FoundAt files (some path) t := by
  simp only [ofFileIn, FoundAt]
  cases files.read path with
  | error e => simp [textOf, ofText]
  | ok b =>
    cases hdecode : Utf8.decode? b with
    | none => simp [textOf, ofText, hdecode]
    | some text =>
      cases hmade : ofToml text <;> simp [textOf, ofText, Except.mapError, hdecode, hmade]

theorem loadIn_eq_ok_iff {files : FileSystem} {path : Option String} {t : Taxonomy} :
    loadIn files path = .ok t ↔ FoundAt files path t := by
  cases path with
  | some path => exact ofFileIn_eq_ok_iff
  | none =>
    simp only [loadIn, FoundAt]
    cases builtin <;> simp [Except.mapError]

end Taxonomy

namespace Config

def ofText (path : String) : Except FileError String → Except ConfigFailure Config
  | .error e => .error (.file e)
  | .ok text => ofFileText path text

def loadIn (files : FileSystem) (path : String) : Except ConfigFailure Config :=
  if files.pathExists path then ofText path (textOf (files.read path)) else .ok standard

theorem load_onlyLooks (path : String) :
    OnlyLooks (load path).run (fun files _ => loadIn files path) := by
  refine (OnlyLooks.pathExists path).lift.bindExcept (g := fun there files _ =>
    if there then ofText path (textOf (files.read path)) else .ok standard) ?_
  intro there
  cases there with
  | false => exact .ok _
  | true =>
    refine (readTextFile_onlyLooks path).lift.bindExcept (g := fun r _ _ => ofText path r) ?_
    intro r
    cases r with
    | error e => exact .throw _
    | ok text => exact .ofExcept _

/-- Settings are the ones that a file tells, if they pass the check; and the standard ones only if
there is nothing at the path. -/
def ToldAt (files : FileSystem) (path : String) (told : Config) : Prop :=
  if files.pathExists path then
    ∃ b text, files.read path = .ok b ∧ Utf8.decode? b = some text ∧
      Toml.read (Config.read .toml) text = .ok told ∧ told.validate = .ok ()
  else told = standard

@[simp] theorem relativeTo_classifier (told : Config) (path : String) :
    (told.relativeTo path).classifier = told.classifier := by
  unfold relativeTo
  split
  · split <;> rfl
  · rfl

@[simp] theorem validate_relativeTo (told : Config) (path : String) :
    (told.relativeTo path).validate = told.validate := by
  unfold relativeTo
  split
  · split <;> rfl
  · rfl

theorem ofFileText_eq_ok_iff {path text : String} {c : Config} :
    ofFileText path text = .ok c ↔
      ∃ told, Toml.read (Config.read .toml) text = .ok told ∧ told.validate = .ok () ∧
        told.relativeTo path = c := by
  unfold ofFileText
  cases Toml.read (Config.read .toml) text with
  | error cause => simp [Except.mapError, bind, Except.bind]
  | ok told =>
    simp only [Except.mapError, bind, Except.bind, validate_relativeTo, pure, Except.pure]
    cases hvalid : told.validate with
    | error flaw => simp [hvalid]
    | ok _ => simp [hvalid]

theorem loadIn_eq_ok_iff {files : FileSystem} {path : String} {c : Config} :
    loadIn files path = .ok c ↔ ∃ told, ToldAt files path told ∧ told.relativeTo path = c := by
  unfold loadIn ToldAt
  split
  · cases files.read path with
    | error e => simp [textOf, ofText]
    | ok b =>
      cases hdecode : Utf8.decode? b <;>
        simp [textOf, ofText, ofFileText_eq_ok_iff, hdecode, and_assoc]
  · simp only [Except.ok.injEq, exists_eq_left]
    exact Iff.rfl

theorem validate_standard : standard.validate = .ok () := by
  have hratio : (Binary64.lt 0 standard.classifier.thresholdRatio &&
      standard.classifier.thresholdRatio.le 1) = true := by decide +kernel
  simp only [validate, hratio, Bool.not_true, Bool.false_eq_true, ↓reduceIte]
  rfl

theorem ToldAt.validate {files : FileSystem} {path : String} {told : Config}
    (h : ToldAt files path told) : told.validate = .ok () := by
  unfold ToldAt at h
  split at h
  · obtain ⟨_, _, -, -, -, hvalid⟩ := h
    exact hvalid
  · rw [h]
    exact validate_standard

end Config

section Statistics

open Document (Reader)

variable {α : Type}

def documentOf (reader : Reader α) : Except FileError Bytes → Except StorageFailure α
  | .error .isDirectory => .error (.unreadable .isDirectory)
  | .error e => .error (.file e)
  | .ok content => (Json.read reader content).mapError .misread

theorem readDocumentFile_onlyLooks (reader : Reader α) (path : String) :
    OnlyLooks (readDocumentFile reader path).run
      (fun files _ => documentOf reader (files.read path)) := by
  refine (OnlyLooks.readFile path).lift.bindExcept (g := fun r _ _ => documentOf reader r) ?_
  intro r
  cases r with
  | error e => cases e <;> exact .throw _
  | ok content =>
    simp only [documentOf]
    cases Json.read reader content with
    | ok x => exact .ok x
    | error cause => exact .throw _

def linesOf (reader : Reader α) : Except FileError Bytes → Except StorageFailure (List α)
  | .error e => .error (.file e)
  | .ok content => .ok (Lines.read reader content).entities

def linesIn (reader : Reader α) (files : FileSystem) (path : String) :
    Except StorageFailure (List α) :=
  if files.pathExists path then linesOf reader (files.read path) else .error (.pathNotFound path)

/-- Noting one failure after the other, where work may fail. -/
theorem noteFailures_run {ε : Type} (numbers : List Nat) (path : String) (machine : Machine) :
    (forIn numbers PUnit.unit fun number _ => do
      (Host.note (.unparsedLine number path) : StateM Machine Unit)
      pure (.yield PUnit.unit) : ExceptT ε (StateM Machine) PUnit).run.run machine =
      (.ok PUnit.unit, { machine with
        journal := machine.journal ++
          numbers.map (fun number => Event.unparsedLine number path) }) := by
  induction numbers generalizing machine with
  | nil => rfl
  | cons number numbers ih =>
    rw [List.forIn_cons, bind_assoc, run_lift_bind, pure_bind]
    exact ih _

theorem readLinesFile_onlyLooks (reader : Reader α) (path : String) :
    OnlyLooks (readLinesFile reader path).run (fun files _ => linesIn reader files path) := by
  refine (OnlyLooks.pathExists path).lift.bindExcept (g := fun there files _ =>
    if there then linesOf reader (files.read path) else .error (.pathNotFound path)) ?_
  intro there
  cases there with
  | false => exact .throw _
  | true =>
    refine (OnlyLooks.readFile path).lift.bindExcept (g := fun r _ _ => linesOf reader r) ?_
    intro r
    cases r with
    | error e => exact .throw _
    | ok content =>
      exact OnlyLooks.bindExcept (f := fun _ _ => .ok PUnit.unit)
        (fun machine => ⟨_, noteFailures_run _ path machine⟩)
        (fun _ => (OnlyLooks.note _).lift.bindExcept (fun _ => .ok _))

def statisticsIn (files : FileSystem) (path : String) :
    FileFormat → Except StorageFailure MatchStats
  | .document => documentOf MatchStats.read (files.read path)
  | .lines =>
    (linesIn (PlayerStats.read playerRoom) files path).map (fun ps => ⟨Path.stem? path, ps⟩)

def statisticsAt (files : FileSystem) (path : String) (format : FileFormat) :
    Except StorageFailure MatchStats :=
  if files.pathExists path then statisticsIn files path format else .error (.pathNotFound path)

def matchIn (files : FileSystem) (path : String) : Except StorageFailure MatchStats := do
  statisticsAt files path (← FileFormat.ofPath path)

theorem pathExists_of_read {files : FileSystem} {path : String} {content : Bytes}
    (h : files.read path = .ok content) : files.pathExists path = true := by
  unfold FileSystem.read at h
  unfold FileSystem.pathExists
  cases hfind : files.find path with
  | error e => simp [hfind, bind, Except.bind] at h
  | ok p =>
    simp only [hfind, bind, Except.bind] at h
    split at h <;> simp_all

theorem matchIn_document {files : FileSystem} {path : String} {content : Bytes}
    (hformat : FileFormat.ofPath path = .ok .document) (h : files.read path = .ok content) :
    matchIn files path = (Json.read MatchStats.read content).mapError .misread := by
  rw [matchIn, hformat]
  simp only [bind, Except.bind, statisticsAt, pathExists_of_read h, ↓reduceIte, statisticsIn, h,
    documentOf]

theorem readMatch_onlyLooks (path : String) :
    OnlyLooks (readMatch path).run (fun files _ => matchIn files path) := by
  refine (OnlyLooks.ofExcept (FileFormat.ofPath path)).bindExcept
    (g := fun format files _ => statisticsAt files path format) ?_
  intro format
  refine (OnlyLooks.pathExists path).lift.bindExcept (g := fun there files _ =>
    if there then statisticsIn files path format else .error (.pathNotFound path)) ?_
  intro there
  cases there with
  | false => exact .throw _
  | true =>
    cases format with
    | document =>
      refine ((readDocumentFile_onlyLooks MatchStats.read path).bindExcept (fun stats =>
        (OnlyLooks.note _).lift.bindExcept (fun _ => .ok stats))).of_eq ?_
      intro files _
      simp only [statisticsIn, ↓reduceIte]
      cases documentOf MatchStats.read (files.read path) <;> rfl
    | lines =>
      have hlines := readLinesFile_onlyLooks (PlayerStats.read playerRoom) path
      refine (hlines.bindExcept (fun players => (OnlyLooks.note _).lift.bindExcept
        (fun _ => .ok (MatchStats.mk (Path.stem? path) players)))).of_eq ?_
      intro files _
      simp only [statisticsIn, ↓reduceIte]
      cases linesIn (PlayerStats.read playerRoom) files path <;> rfl

end Statistics

end Allegiance
