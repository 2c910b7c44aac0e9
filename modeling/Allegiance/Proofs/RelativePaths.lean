import Allegiance.Proofs.FileReplacement

namespace Allegiance

namespace Path

theorem pieces_ne_nil (cs : List Char) : pieces cs ≠ [] := by
  cases cs with
  | nil => simp [pieces]
  | cons c rest =>
    rw [pieces]
    split
    · simp
    · split <;> simp

theorem pieces_append_slash (before after : List Char) :
    pieces (before ++ '/' :: after) = pieces before ++ pieces after := by
  induction before with
  | nil => simp [pieces]
  | cons c before ih =>
    rw [List.cons_append, pieces, ih]
    by_cases hc : c = '/'
    · simp [pieces, hc]
    · simp only [pieces, hc, ↓reduceIte]
      cases hp : pieces before with
      | nil => exact absurd hp (pieces_ne_nil before)
      | cons p ps => rfl

/-- A directory and a relative path joined to it, with one slash between them. -/
theorem join_eq {directory path : String} (hrelative : isAbsolute path = false)
    (hne : directory ≠ "") :
    ∃ before, (join directory path).toList = before ++ '/' :: path.toList ∧
      (directory.toList = before ∨ directory.toList = before ++ ['/']) := by
  have hne : directory.toList ≠ [] := by simpa using hne
  obtain ⟨before, c, hdir⟩ : ∃ before c, directory.toList = before ++ [c] :=
    ⟨_, _, (List.dropLast_concat_getLast hne).symm⟩
  simp only [join, hrelative, Bool.false_eq_true, ↓reduceIte, hdir, List.getLast?_append,
    List.getLast?_singleton, Option.some_or]
  split
  · subst c
    exact ⟨before, by simp [hdir], .inr rfl⟩
  · exact ⟨before ++ [c], by simp [hdir], .inl rfl⟩

theorem isAbsolute_join {directory path : String} (hrelative : isAbsolute path = false)
    (hne : directory ≠ "") : isAbsolute (join directory path) = isAbsolute directory := by
  obtain ⟨before, hjoin, hdirectory⟩ := join_eq hrelative hne
  have hne : directory.toList ≠ [] := by simpa using hne
  unfold isAbsolute
  rw [hjoin]
  rcases hdirectory with h | h
  · obtain ⟨c, rest, hbefore⟩ := List.exists_cons_of_ne_nil (h ▸ hne)
    simp [h, hbefore]
  · simp [h, List.head?_append]

theorem utf8ByteSize_join (directory path : String) (hrelative : isAbsolute path = false) :
    directory.utf8ByteSize + path.utf8ByteSize ≤ (join directory path).utf8ByteSize := by
  simp only [join, hrelative, Bool.false_eq_true, ↓reduceIte]
  split
  · rename_i h
    have : directory = "" := by simpa using h
    simp [this]
  · split <;> simp [String.utf8ByteSize_append]

end Path

namespace FileSystem

structure Nameable (path : String) : Prop where
  noNul : '\x00' ∉ path.toList
  nonempty : path ≠ ""
  size : path.utf8ByteSize ≤ longestPath

variable {fs : FileSystem} {directory path : String} {p : Place} {content : Bytes}

theorem find_eq_ok_iff : fs.find path = .ok p ↔ Nameable path ∧
    ((Path.pieces path.toList).map String.ofList).foldlM fs.step
      (if Path.isAbsolute path then [] else fs.start) = .ok p := by
  unfold find parse
  split
  · rename_i hnul
    simp only [bind, Except.bind, reduceCtorEq, false_iff, not_and]
    intro h
    exact absurd (by simpa using hnul) h.noNul
  · rename_i hnul
    split
    · rename_i hempty
      simp only [bind, Except.bind, reduceCtorEq, false_iff, not_and]
      exact fun h => absurd hempty h.nonempty
    · rename_i hempty
      split
      · rename_i hlong
        simp only [bind, Except.bind, reduceCtorEq, false_iff, not_and]
        exact fun h => absurd h.size (Nat.not_le.mpr hlong)
      · rename_i hlong
        have hname : Nameable path := ⟨by simpa using hnul, hempty, Nat.not_lt.mp hlong⟩
        simp [bind, Except.bind, hname]

theorem read_eq_ok_iff : fs.read path = .ok content ↔
    ∃ p, fs.find path = .ok p ∧ fs.entry p = some (.file content) := by
  unfold read
  cases fs.find path with
  | error e => simp [bind, Except.bind]
  | ok p =>
    simp only [bind, Except.bind, Except.ok.injEq, exists_eq_left']
    split <;> simp_all

theorem Nameable.of_join_left (h : Nameable (Path.join directory path))
    (hrelative : Path.isAbsolute path = false) (hne : directory ≠ "") : Nameable directory := by
  obtain ⟨before, hjoin, hdirectory⟩ := Path.join_eq hrelative hne
  have hnul := h.noNul
  have hsize := Path.utf8ByteSize_join directory path hrelative
  refine ⟨?_, hne, by have := h.size; omega⟩
  rw [hjoin] at hnul
  rcases hdirectory with h | h <;> simp_all

theorem Nameable.of_join_right (h : Nameable (Path.join directory path))
    (hrelative : Path.isAbsolute path = false) (hne : path ≠ "") : Nameable path := by
  have hsize := Path.utf8ByteSize_join directory path hrelative
  refine ⟨?_, hne, by have := h.size; omega⟩
  have hnul := h.noNul
  by_cases hdirectory : directory = ""
  · simpa [hdirectory, Path.join, hrelative] using hnul
  · obtain ⟨before, hjoin, -⟩ := Path.join_eq hrelative hdirectory
    rw [hjoin] at hnul
    simp_all

/-- The place that relative paths of a file start in; the directory one is in has no name. -/
def findDirectory (fs : FileSystem) (directory : String) : Except FileError Place :=
  if directory = "" then .ok fs.start else fs.find directory

theorem entry_of_foldlM {q r : Place} {pieces : List String} (hne : pieces ≠ [])
    (h : pieces.foldlM fs.step q = .ok r) : fs.entry q = some .directory := by
  cases pieces with
  | nil => exact absurd rfl hne
  | cons piece rest =>
    rw [List.foldlM_cons] at h
    cases hstep : fs.step q piece with
    | error e => simp [hstep, bind, Except.bind] at h
    | ok q' => exact entry_of_step hstep

theorem step_empty {q : Place} (h : fs.entry q = some .directory) : fs.step q "" = .ok q := by
  simp [step, enter, h, bind, Except.bind, pure, Except.pure]

/-- A way that is one after the other passes a place in between. -/
theorem foldlM_step_append {pieces pieces' : List String} {q r : Place}
    (h : (pieces ++ pieces').foldlM fs.step q = .ok r) :
    ∃ m, pieces.foldlM fs.step q = .ok m ∧ pieces'.foldlM fs.step m = .ok r := by
  rw [List.foldlM_append] at h
  cases hm : pieces.foldlM fs.step q with
  | error e => simp [hm, bind, Except.bind] at h
  | ok m => exact ⟨m, rfl, by simpa [hm, bind, Except.bind] using h⟩

/-- A path that is joined to a directory leads to where it leads from that directory. -/
theorem read_join (hrelative : Path.isAbsolute path = false)
    (h : fs.read (Path.join directory path) = .ok content) :
    ∃ place, fs.findDirectory directory = .ok place ∧
      ({ fs with start := place } : FileSystem).read path = .ok content := by
  unfold findDirectory
  split
  · subst directory
    refine ⟨fs.start, rfl, ?_⟩
    simpa [Path.join, hrelative] using h
  · rename_i hne
    obtain ⟨before, hjoin, hdirectory⟩ := Path.join_eq hrelative hne
    obtain ⟨p, hfind, hentry⟩ := read_eq_ok_iff.mp h
    obtain ⟨hname, hway⟩ := find_eq_ok_iff.mp hfind
    -- The way through both parts of the path passes the place that the first part leads to.
    rw [hjoin, Path.pieces_append_slash, List.map_append] at hway
    obtain ⟨place, hbefore, hafter⟩ := foldlM_step_append hway
    have hplace : fs.entry place = some .directory :=
      entry_of_foldlM (by simpa using Path.pieces_ne_nil path.toList) hafter
    have hdirectory : fs.find directory = .ok place := by
      refine find_eq_ok_iff.mpr ⟨hname.of_join_left hrelative hne, ?_⟩
      rw [← Path.isAbsolute_join hrelative hne]
      rcases hdirectory with hdirectory | hdirectory
      · rw [hdirectory]
        exact hbefore
      · rw [hdirectory, Path.pieces_append_slash, List.map_append, List.foldlM_append, hbefore]
        have hlast : [""].foldlM fs.step place = .ok place := by
          rw [List.foldlM_cons, step_empty hplace]
          rfl
        exact hlast
    -- A path of no name would lead to the directory itself, where there is no file.
    have hpath : path ≠ "" := by
      rintro rfl
      have hstay : p = place := by
        simpa [Path.pieces, step_empty hplace] using hafter.symm
      rw [hstay, hplace] at hentry
      cases hentry
    refine ⟨place, hdirectory, read_eq_ok_iff.mpr ⟨p, ?_, hentry⟩⟩
    refine find_eq_ok_iff.mpr ⟨hname.of_join_right hrelative hpath, ?_⟩
    rw [hrelative]
    exact hafter

end FileSystem

end Allegiance
