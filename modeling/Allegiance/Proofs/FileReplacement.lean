import Allegiance.Proofs.Looking
import Allegiance.Storage.Files

namespace Allegiance

namespace FileSystem

@[simp] theorem entry_set_self (fs : FileSystem) (p : Place) (e : Option Entry) :
    (fs.set p e).entry p = e := by
  simp [set]

theorem entry_set_of_ne {p q : Place} (h : q ≠ p) (fs : FileSystem) (e : Option Entry) :
    (fs.set p e).entry q = fs.entry q := by
  simp [set, h]

theorem enter_eq_ok {fs : FileSystem} {p : Place} (h : fs.enter p = .ok ()) :
    fs.entry p = some .directory := by
  unfold enter at h
  split at h
  · assumption
  · cases h
  · cases h

theorem enter_set {fs : FileSystem} {p q : Place} (h : q ≠ p) (e : Option Entry) :
    (fs.set p e).enter q = fs.enter q := by
  simp only [enter, entry_set_of_ne h]

theorem step_set {fs : FileSystem} {p q : Place} (h : q ≠ p) (e : Option Entry) (piece : String) :
    (fs.set p e).step q piece = fs.step q piece := by
  simp only [step, enter_set h]

theorem entry_of_step {fs : FileSystem} {q r : Place} {piece : String}
    (h : fs.step q piece = .ok r) : fs.entry q = some .directory := by
  cases hq : fs.enter q with
  | error e => simp [step, hq, bind, Except.bind] at h
  | ok _ => exact enter_eq_ok hq

/-- A way that leads somewhere passes directories only, so it is the same way when something else
changes. -/
theorem foldlM_step_set {fs : FileSystem} {p q r : Place} {pieces : List String}
    (h : pieces.foldlM fs.step q = .ok r) (hp : fs.entry p ≠ some .directory) (e : Option Entry) :
    pieces.foldlM (fs.set p e).step q = .ok r := by
  induction pieces generalizing q with
  | nil => exact h
  | cons piece pieces ih =>
    rw [List.foldlM_cons] at h ⊢
    cases hstep : fs.step q piece with
    | error e => simp [hstep, bind, Except.bind] at h
    | ok q' =>
      have hq : q ≠ p := by
        rintro rfl
        exact hp (entry_of_step hstep)
      rw [hstep] at h
      rw [step_set hq, hstep]
      exact ih h

/-- A path leads to the same place when what is there changes, unless that is a directory. -/
theorem find_set {fs : FileSystem} {path : String} {p : Place} (h : fs.find path = .ok p)
    (hp : fs.entry p ≠ some .directory) (e : Option Entry) : (fs.set p e).find path = .ok p := by
  unfold find at h ⊢
  cases hparse : fs.parse path with
  | error e => simp [hparse, bind, Except.bind] at h
  | ok origin =>
    have hparse' : (fs.set p e).parse path = .ok origin := hparse
    rw [hparse] at h
    rw [hparse']
    exact foldlM_step_set h hp e

theorem write_eq_ok {fs fs' : FileSystem} {path : String} {content : Bytes}
    (h : fs.write path content = .ok fs') :
    ∃ p, fs' = fs.set p (some (.file content)) ∧ fs'.find path = .ok p := by
  unfold write at h
  cases hparse : fs.parse path with
  | error e => simp [hparse, bind, Except.bind] at h
  | ok start =>
    obtain ⟨start, pieces⟩ := start
    simp only [hparse, bind, Except.bind] at h
    split at h
    · -- A path that ends in a slash ends in a failure, however far it leads.
      split at h
      · cases h
      · split at h <;> cases h
    · cases hway : pieces.foldlM fs.step start with
      | error e => simp [hway] at h
      | ok p =>
        simp only [hway] at h
        split at h
        · cases h
        · rename_i hentry
          cases h
          have hfind : fs.find path = .ok p := by
            simp only [find, hparse, bind, Except.bind]
            exact hway
          exact ⟨p, rfl, find_set hfind hentry _⟩

theorem read_of_write {fs fs' : FileSystem} {path : String} {content : Bytes}
    (h : fs.write path content = .ok fs') : fs'.read path = .ok content := by
  obtain ⟨p, rfl, hfind⟩ := write_eq_ok h
  simp [read, hfind, bind, Except.bind]

theorem pathExists_of_write {fs fs' : FileSystem} {path : String} {content : Bytes}
    (h : fs.write path content = .ok fs') : fs'.pathExists path = true := by
  obtain ⟨p, rfl, hfind⟩ := write_eq_ok h
  simp [pathExists, hfind]

/-- Nothing differs but directories that were made. -/
structure Grown (before after : FileSystem) : Prop where
  start : after.start = before.start
  entry : ∀ p, after.entry p = before.entry p ∨
    (before.entry p = none ∧ after.entry p = some .directory)

theorem Grown.refl (fs : FileSystem) : Grown fs fs := ⟨rfl, fun _ => .inl rfl⟩

theorem Grown.trans {a b c : FileSystem} (hab : Grown a b) (hbc : Grown b c) : Grown a c where
  start := hbc.start.trans hab.start
  entry p := by
    rcases hbc.entry p with hc | ⟨hb, hc⟩
    · rw [hc]
      exact hab.entry p
    · rcases hab.entry p with ha | ⟨ha, hb'⟩
      · exact .inr ⟨ha ▸ hb, hc⟩
      · exact .inr ⟨ha, hc⟩

theorem grown_set {fs : FileSystem} {p : Place} (h : fs.entry p = none) :
    Grown fs (fs.set p (some .directory)) where
  start := rfl
  entry q := by
    by_cases hq : q = p
    · subst hq
      exact .inr ⟨h, fs.entry_set_self q _⟩
    · exact .inl (entry_set_of_ne hq fs _)

theorem makeAlong_grown (fs : FileSystem) (p : Place) (pieces : List String) :
    Grown fs (fs.makeAlong p pieces).1 := by
  induction pieces generalizing fs p with
  | nil => exact .refl fs
  | cons piece pieces ih =>
    rw [makeAlong]
    split
    · exact .refl fs
    · split
      · exact ih fs _
      · exact .refl fs
      · rename_i hnone
        exact (grown_set hnone).trans (ih _ _)

theorem makeDirectories_grown (fs : FileSystem) (path : String) :
    Grown fs (fs.makeDirectories path).1 := by
  rw [makeDirectories]
  split
  · exact .refl fs
  · split
    · exact .refl fs
    · exact fs.makeAlong_grown _ _

/-- Nothing differs but the file at a path, and directories that were made. -/
structure Rewritten (path : String) (before after : FileSystem) : Prop where
  start : after.start = before.start
  entry : ∀ p, after.entry p = before.entry p ∨
    (before.entry p = none ∧ after.entry p = some .directory) ∨ after.find path = .ok p

theorem Grown.rewritten {before between after : FileSystem} {path : String} {content : Bytes}
    (h : Grown before between) (hwrite : between.write path content = .ok after) :
    Rewritten path before after := by
  obtain ⟨p, rfl, hfind⟩ := write_eq_ok hwrite
  refine ⟨h.start, ?_⟩
  intro q
  by_cases hq : q = p
  · exact .inr (.inr (hq ▸ hfind))
  · rw [entry_set_of_ne hq]
    exact (h.entry q).imp_right .inl

end FileSystem

theorem makeDirectories_run (path : String) (machine : Machine) :
    (Host.makeDirectories path : StateM Machine (Except FileError Unit)).run machine =
      ((machine.files.makeDirectories path).2,
        { machine with files := (machine.files.makeDirectories path).1 }) := rfl

theorem writeFile_run (path : String) (content : Bytes) (machine : Machine) :
    (Host.writeFile path content : StateM Machine (Except FileError Unit)).run machine =
      match machine.files.write path content with
      | .ok files => (.ok (), { machine with files })
      | .error e => (.error e, machine) := by
  simp only [Host.writeFile, StateT.run_bind, StateT.run_get, pure_bind]
  cases machine.files.write path content with
  | ok files => rfl
  | error e => rfl

/-- Write a file that lies in a directory that is there. -/
def writeOrFail (path : String) (content : Bytes) : StorageM (StateM Machine) Unit := do
  if let .error e := (← (Host.writeFile path content : StateM Machine _)) then throw (.file e)

theorem writeOrFail_eq_ok {path : String} {content : Bytes} {machine machine' : Machine}
    (h : (writeOrFail path content).run.run machine = (.ok (), machine')) :
    machine.files.write path content = .ok machine'.files := by
  rw [writeOrFail, run_lift_bind, writeFile_run] at h
  cases hwrite : machine.files.write path content with
  | ok files =>
    rw [hwrite] at h
    cases h
    rfl
  | error e =>
    rw [hwrite] at h
    cases h

/-- Writing does not depend on what was noted. -/
theorem writeOrFail_journal {path : String} {content : Bytes} {machine after : Machine}
    {result : Except StorageFailure Unit}
    (h : (writeOrFail path content).run.run machine = (result, after)) (journal : Array Event) :
    (writeOrFail path content).run.run { machine with journal } =
      (result, { after with journal }) := by
  rw [writeOrFail, run_lift_bind, writeFile_run] at h ⊢
  cases hwrite : machine.files.write path content <;>
    (rw [hwrite] at h; cases h; rfl)

theorem replaceFile_journal {path : String} {content : Bytes} {machine after : Machine}
    {result : Except StorageFailure Unit}
    (h : (replaceFile path content : StorageM (StateM Machine) Unit).run.run machine =
      (result, after)) (journal : Array Event) :
    (replaceFile path content : StorageM (StateM Machine) Unit).run.run { machine with journal } =
      (result, { after with journal }) := by
  unfold replaceFile at h ⊢
  cases hparent : Path.parent? path with
  | none =>
    simp only [hparent] at h ⊢
    exact writeOrFail_journal h journal
  | some parent =>
    simp only [hparent] at h ⊢
    rw [run_lift_bind, makeDirectories_run] at h ⊢
    cases hmade : (machine.files.makeDirectories parent).2 with
    | error e =>
      simp only [hmade] at h ⊢
      cases h
      rfl
    | ok _ =>
      simp only [hmade] at h ⊢
      exact writeOrFail_journal h journal

theorem replaceFile_eq_ok {path : String} {content : Bytes} {machine machine' : Machine}
    (h : (replaceFile path content : StorageM (StateM Machine) Unit).run.run machine =
      (.ok (), machine')) :
    ∃ files, FileSystem.Grown machine.files files ∧
      files.write path content = .ok machine'.files := by
  unfold replaceFile at h
  cases hparent : Path.parent? path with
  | none =>
    simp only [hparent] at h
    exact ⟨_, .refl _, writeOrFail_eq_ok h⟩
  | some parent =>
    simp only [hparent] at h
    rw [run_lift_bind, makeDirectories_run] at h
    cases hmade : (machine.files.makeDirectories parent).2 with
    | error e =>
      simp only [hmade] at h
      cases h
    | ok _ =>
      simp only [hmade] at h
      exact ⟨_, machine.files.makeDirectories_grown parent, writeOrFail_eq_ok h⟩

/-- A file that was replaced holds the new content, whatever it held before. -/
theorem read_of_replaceFile {path : String} {content : Bytes} {machine machine' : Machine}
    (h : (replaceFile path content : StorageM (StateM Machine) Unit).run.run machine =
      (.ok (), machine')) :
    machine'.files.pathExists path = true ∧ machine'.files.read path = .ok content := by
  obtain ⟨files, -, hwrite⟩ := replaceFile_eq_ok h
  exact ⟨FileSystem.pathExists_of_write hwrite, FileSystem.read_of_write hwrite⟩

/-- Replacing a file leaves all other files as they are. -/
theorem rewritten_of_replaceFile {path : String} {content : Bytes} {machine machine' : Machine}
    (h : (replaceFile path content : StorageM (StateM Machine) Unit).run.run machine =
      (.ok (), machine')) : FileSystem.Rewritten path machine.files machine'.files := by
  obtain ⟨files, hgrown, hwrite⟩ := replaceFile_eq_ok h
  exact hgrown.rewritten hwrite

theorem writeClassifiedFile_run {path : String} {format : FileFormat}
    (h : FileFormat.ofPath path = .ok format) (r : ClassifiedMatch) (machine : Machine) :
    ∃ result after journal,
      (replaceFile path (r.written format) : StorageM (StateM Machine) Unit).run.run machine =
        (result, after) ∧
      (writeClassifiedFile path r : StorageM (StateM Machine) Unit).run.run machine =
        (result, { after with journal }) := by
  have hformat : (liftM (FileFormat.ofPath path) : StorageM (StateM Machine) FileFormat).run.run
      machine = (.ok format, machine) := by rw [h]; rfl
  unfold writeClassifiedFile
  rw [run_bind_of_ok hformat]
  cases format with
  | document => exact ⟨_, _, _, rfl, rfl⟩
  | lines =>
    cases hreplace : (replaceFile path (r.written .lines) :
        StorageM (StateM Machine) Unit).run.run machine with
    | mk result after =>
      cases result with
      | error e =>
        refine ⟨.error e, after, after.journal, rfl, ?_⟩
        exact run_bind_of_error (run_bind_of_error hreplace)
      | ok _ =>
        let values := r.players.map ClassifiedPlayer.toJson
        have hlines : (writeLinesFile path values : StorageM (StateM Machine) Nat).run.run machine =
            (.ok values.length, { after with
              journal := after.journal.push (.wroteEntities values.length path) }) :=
          run_bind_of_ok hreplace
        exact ⟨.ok (), after, _, rfl, run_bind_of_ok hlines⟩

/-- A path that asks for no format fails before anything is written. -/
theorem writeClassifiedFile_unsupported {path : String} {e : StorageFailure}
    (h : FileFormat.ofPath path = .error e) (r : ClassifiedMatch) (machine : Machine) :
    (writeClassifiedFile path r : StorageM (StateM Machine) Unit).run.run machine =
      (.error e, machine) := by
  have hformat : (liftM (FileFormat.ofPath path) : StorageM (StateM Machine) FileFormat).run.run
      machine = (.error e, machine) := by rw [h]; rfl
  exact run_bind_of_error hformat

/-- Writing succeeds in a format only, and the file then holds what that makes of the match. -/
theorem ClassifiedMatch.read_of_writeClassifiedFile {path : String} {r : ClassifiedMatch}
    {before after : Machine}
    (h : (writeClassifiedFile path r : StorageM (StateM Machine) Unit).run.run before =
      (.ok (), after)) :
    ∃ format, FileFormat.ofPath path = .ok format ∧ after.files.pathExists path = true ∧
      after.files.read path = .ok (r.written format) := by
  cases hformat : FileFormat.ofPath path with
  | error e =>
    rw [writeClassifiedFile_unsupported hformat] at h
    cases h
  | ok format =>
    obtain ⟨result, between, journal, hreplace, hwrite⟩ := writeClassifiedFile_run hformat r before
    rw [hwrite] at h
    cases h
    have hfile := read_of_replaceFile hreplace
    exact ⟨format, rfl, hfile⟩

end Allegiance
