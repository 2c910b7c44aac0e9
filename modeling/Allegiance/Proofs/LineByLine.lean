import Allegiance.Proofs.FileContents
import Allegiance.Proofs.WrittenLines

namespace Allegiance

open Document (Flaw Reader)

/-- A reader that wants its value does not read a document that breaks at its start. -/
def WantsValue {α : Type} (reader : Reader α) : Prop :=
  ∀ f : Flaw, ∃ e, reader (.flaw f) = .error e

theorem PlayerStats.read_wantsValue (room : Nat) : WantsValue (PlayerStats.read room) := by
  intro f
  exact ⟨.broken f.wanted, rfl⟩

namespace Lines

open Json (document)

/-- Of all white space only a form feed is a token of its own, and one that stands nowhere. -/
theorem ofBytes_of_isBlankByte {line : Bytes} (h : line.all isBlankByte = true) :
    Json.Token.ofBytes line = [] ∨ Json.Token.ofBytes line = [.stray] := by
  induction line with
  | nil => exact .inl Json.Token.ofBytes_nil
  | cons c line ih =>
    obtain ⟨hc, hline⟩ := Bool.and_eq_true_iff.mp h
    cases hblank : Json.isBlank c with
    | true =>
      rw [Json.Token.ofBytes_blank hblank]
      exact ih hline
    | false =>
      have hfeed : c = 12 := by
        simp only [Json.isBlank, Bool.or_eq_false_iff, decide_eq_false_iff_not] at hblank
        simp only [isBlankByte, Bool.or_eq_true, decide_eq_true_eq] at hc
        grind
      subst hfeed
      right
      rw [Json.Token.ofBytes_scan hblank rfl, Json.Token.ofBytes_nil]

/-- A line with nothing on it is no document. -/
theorem document_of_isBlankByte {line : Bytes} (h : line.all isBlankByte = true) :
    ∃ f, document line = (.flaw f, false) := by
  rcases ofBytes_of_isBlankByte h with htokens | htokens
  · exact ⟨.missing, by rw [document, htokens]; rfl⟩
  · exact ⟨.stray, by rw [document, htokens]; rfl⟩

variable {α : Type}

def kept? (reader : Reader α) (line : Bytes) : Option α :=
  if line.all isBlankByte then none else (Json.read reader line).toOption

def spoiled (reader : Reader α) (line : Bytes) : Bool :=
  !line.all isBlankByte && (Json.read reader line).toOption.isNone

/-- Lines with nothing on them need not be told apart from lines that are not read. -/
theorem kept?_eq {reader : Reader α} (h : WantsValue reader) (line : Bytes) :
    kept? reader line = (Json.read reader line).toOption := by
  cases hblank : line.all isBlankByte with
  | false => simp [kept?, hblank]
  | true =>
    obtain ⟨f, hf⟩ := document_of_isBlankByte hblank
    obtain ⟨e, he⟩ := h f
    simp [kept?, hblank, Json.read, hf, he, Except.toOption]

theorem readLine_eq (reader : Reader α) (number : Nat) (line : Bytes) :
    readLine reader number line =
      ⟨(kept? reader line).toList, if spoiled reader line then [number] else []⟩ := by
  cases hblank : line.all isBlankByte with
  | true => simp [readLine, kept?, spoiled, hblank, Harvest.empty]
  | false =>
    cases hread : Json.read reader line with
    | ok x => simp [readLine, kept?, spoiled, hblank, hread, Except.toOption]
    | error e => simp [readLine, kept?, spoiled, hblank, hread, Except.toOption]

theorem length_readLine (reader : Reader α) (number : Nat) (line : Bytes) :
    (readLine reader number line).entities.length +
      (readLine reader number line).failures.length +
      (if line.all isBlankByte then 1 else 0) = 1 := by
  cases hblank : line.all isBlankByte with
  | true => simp [readLine, hblank, Harvest.empty]
  | false =>
    cases hread : Json.read reader line with
    | ok x => simp [readLine, hblank, hread]
    | error e => simp [readLine, hblank, hread]

namespace Harvest

def raised (h : Harvest α) (k : Nat) : Harvest α := ⟨h.entities, h.failures.map (· + k)⟩

theorem append_assoc (a b c : Harvest α) : (a.append b).append c = a.append (b.append c) := by
  simp [append]

theorem raised_append (a b : Harvest α) (k : Nat) :
    (a.append b).raised k = (a.raised k).append (b.raised k) := by
  simp [append, raised]

end Harvest

theorem readLine_add (reader : Reader α) (number k : Nat) (line : Bytes) :
    readLine reader (number + k) line = (readLine reader number line).raised k := by
  rw [readLine_eq, readLine_eq, Harvest.raised]
  cases spoiled reader line <;> rfl

theorem readFrom_add (reader : Reader α) (number k : Nat) (lines : List Bytes) :
    readFrom reader (number + k) lines = (readFrom reader number lines).raised k := by
  induction lines generalizing number with
  | nil => rfl
  | cons line lines ih =>
    rw [readFrom, readFrom, Harvest.raised_append, readLine_add, ← ih, Nat.add_right_comm]

theorem readFrom_append (reader : Reader α) (number : Nat) (first second : List Bytes) :
    readFrom reader number (first ++ second) =
      (readFrom reader number first).append (readFrom reader (number + first.length) second) := by
  induction first generalizing number with
  | nil => rfl
  | cons line first ih =>
    rw [List.cons_append, readFrom, readFrom, ih, Harvest.append_assoc, List.length_cons,
      Nat.add_assoc, Nat.add_comm 1]

namespace Cut

variable {x y : Bytes} {endedX endedY : List Bytes} {lastX lastY : Bytes}

/-- Between two contents a line feed ends what was last in the first one. -/
theorem append (hx : Cut x endedX lastX) (hy : Cut y endedY lastY) :
    Cut (x ++ lineFeed :: y) (endedX ++ lastX :: endedY) lastY where
  content_eq := by simp [hx.content_eq, hy.content_eq]
  ended := by
    intro line hline
    rcases List.mem_append.mp hline with hline | hline
    · exact hx.ended line hline
    · rcases List.mem_cons.mp hline with rfl | hline
      · exact hx.last
      · exact hy.ended line hline
  last := hy.last

theorem count_eq (hx : Cut x endedX lastX) : x.count lineFeed = endedX.length := by
  obtain ⟨rfl, hended, hlast⟩ := hx
  induction endedX with
  | nil => simp [List.count_eq_zero_of_not_mem hlast]
  | cons line ended ih =>
    have hline : line.count lineFeed = 0 :=
      List.count_eq_zero_of_not_mem (hended line (by simp))
    have hrest := ih (fun l hl => hended l (by simp [hl]))
    simp only [List.flatMap_cons, List.count_append, List.length_cons, List.count_cons_self,
      List.count_nil] at hrest ⊢
    omega

/-- The last line may be read also where it does not count as one: nothing is on it then. -/
theorem read_eq (hx : Cut x endedX lastX) (reader : Reader α) :
    read reader x = readFrom reader 1 (endedX ++ [lastX]) := by
  rw [read, hx.split_eq, readFrom_append, readFrom_append]
  by_cases hlast : lastX = []
  · subst hlast
    rfl
  · rw [if_neg hlast]

end Cut

/-- Two contents with a line feed between them are read one after the other, the second as if its
first line had the number after the last line of the first. -/
theorem read_append (reader : Reader α) (x y : Bytes) :
    read reader (x ++ lineFeed :: y) =
      (read reader x).append ((read reader y).raised (x.count lineFeed + 1)) := by
  obtain ⟨endedX, lastX, hx⟩ := exists_cut x
  obtain ⟨endedY, lastY, hy⟩ := exists_cut y
  have hlines : endedX ++ lastX :: endedY ++ [lastY] =
      (endedX ++ [lastX]) ++ (endedY ++ [lastY]) := by simp
  have hnext : 1 + (endedX ++ [lastX]).length = 1 + (x.count lineFeed + 1) := by
    simp [hx.count_eq]
  calc read reader (x ++ lineFeed :: y)
    _ = readFrom reader 1 ((endedX ++ [lastX]) ++ (endedY ++ [lastY])) := by
      rw [(hx.append hy).read_eq, hlines]
    _ = (readFrom reader 1 (endedX ++ [lastX])).append
          (readFrom reader (1 + (x.count lineFeed + 1)) (endedY ++ [lastY])) := by
      rw [readFrom_append, hnext]
    _ = (read reader x).append ((read reader y).raised (x.count lineFeed + 1)) := by
      rw [readFrom_add, hx.read_eq, hy.read_eq]

/-- The numbers of the spoiled lines, the first of all lines having the given number. -/
def spoiledNumbers (reader : Reader α) (number : Nat) (lines : List Bytes) : List Nat :=
  ((lines.zipIdx number).filter (fun line => spoiled reader line.1)).map Prod.snd

theorem readFrom_eq (reader : Reader α) (number : Nat) (lines : List Bytes) :
    readFrom reader number lines =
      ⟨lines.filterMap (kept? reader), spoiledNumbers reader number lines⟩ := by
  induction lines generalizing number with
  | nil => rfl
  | cons line lines ih =>
    rw [readFrom, ih, readLine_eq, Harvest.append, Harvest.mk.injEq]
    constructor
    · cases hkept : kept? reader line <;> simp [hkept]
    · cases hspoiled : spoiled reader line <;> simp [spoiledNumbers, hspoiled]

theorem length_readFrom (reader : Reader α) (number : Nat) (lines : List Bytes) :
    (readFrom reader number lines).entities.length +
      (readFrom reader number lines).failures.length +
      lines.countP (fun line => line.all isBlankByte) = lines.length := by
  induction lines generalizing number with
  | nil => rfl
  | cons line lines ih =>
    -- The rest is numbered from one further on, so the claim is for any first number.
    have hline := length_readLine reader number line
    have hrest := ih (number + 1)
    simp only [readFrom, Harvest.append, List.length_append, List.countP_cons, List.length_cons]
    omega

/-- What was read from a content, told line by line: every line is kept, spoiled or empty. -/
structure Accounted (reader : Reader α) (content : Bytes) (h : Harvest α) : Prop where
  lines : ∃ ended last, Cut content ended last ∧
    split content = ended ++ if last = [] then [] else [last]
  entities : h.entities = (split content).filterMap (kept? reader)
  failures : h.failures = spoiledNumbers reader 1 (split content)
  total : h.entities.length + h.failures.length +
    (split content).countP (fun line => line.all isBlankByte) = (split content).length

theorem accounted_read (reader : Reader α) (content : Bytes) :
    Accounted reader content (read reader content) := by
  obtain ⟨ended, last, hcut⟩ := exists_cut content
  have hread : read reader content = _ := readFrom_eq reader 1 (split content)
  exact ⟨⟨ended, last, hcut, hcut.split_eq⟩, by rw [hread], by rw [hread],
    length_readFrom reader 1 (split content)⟩

def Harvest.events (h : Harvest α) (path : String) : List Event :=
  h.failures.map (fun number => .unparsedLine number path) ++
    [.readEntities h.entities.length path]

theorem Harvest.append_events (journal : Array Event) (h : Harvest α) (path : String) :
    journal ++ h.events path =
      (journal ++ h.failures.map (fun number => Event.unparsedLine number path)).push
        (.readEntities h.entities.length path) :=
  List.foldl_append

/-- A file with a content is read as a harvest, wherever it lies and whatever else is the case. -/
def ReadAs (reader : Reader α) (content : Bytes) (h : Harvest α) : Prop :=
  ∀ (path : String) (machine : Machine), machine.files.pathExists path = true →
    machine.files.read path = .ok content →
    (readLinesFile reader path : StorageM (StateM Machine) (List α)).run.run machine =
      (.ok h.entities, { machine with journal := machine.journal ++ h.events path })

theorem readAs_read (reader : Reader α) (content : Bytes) :
    ReadAs reader content (read reader content) := by
  intro path machine hexists hread
  have hthere : (Host.pathExists path : StateM Machine Bool).run machine = (true, machine) :=
    congrArg (·, machine) hexists
  have hcontent : (Host.readFile path : StateM Machine (Except FileError Bytes)).run machine =
      (.ok content, machine) := congrArg (·, machine) hread
  rw [readLinesFile, run_lift_bind, hthere]
  simp only [Bool.not_true, Bool.false_eq_true, ↓reduceIte]
  rw [run_lift_bind, hcontent]
  refine (run_bind_of_ok (noteFailures_run _ path machine)).trans ?_
  rw [run_lift_bind, Harvest.append_events]
  rfl

/-- A bad line of a file harms only itself: it costs one warning, which tells its number. Two
contents with a line feed between them are read as the two in turn, where only the numbers of the
lines go on counting. A line with nothing on it is not even looked at, and no reader that wants its
value would read it. -/
theorem readLinesFile_lineByLine (reader : Reader α) :
    (∀ content, ReadAs reader content (read reader content) ∧
      Accounted reader content (read reader content)) ∧
    (∀ x y, read reader (x ++ lineFeed :: y) =
      (read reader x).append ((read reader y).raised (x.count lineFeed + 1))) ∧
    (WantsValue reader → ∀ line, kept? reader line = (Json.read reader line).toOption) := by
  refine ⟨?_, read_append reader, fun hwants line => kept?_eq hwants line⟩
  intro content
  exact ⟨readAs_read reader content, accounted_read reader content⟩

/-- Eight lines: a player, no document, a form feed, a player whose name is no text, a player whose
name is a number, a player with something behind, nothing at all, and a player again. -/
def mixedLines : List Bytes :=
  ["\x7b\"playerId\":\"a\"\x7d\r".toUTF8.toList, "not json".toUTF8.toList, [12],
   "\x7b\"playerId\":\"".toUTF8.toList ++ 255 :: "\"\x7d".toUTF8.toList,
   "\x7b\"playerId\":7\x7d".toUTF8.toList, "\x7b\"playerId\":\"b\"\x7d 0".toUTF8.toList, [],
   "\x7b\"playerId\":\"c\"\x7d".toUTF8.toList]

def mixedContent : Bytes := [lineFeed].intercalate mixedLines

def machineWithMixedLines : Machine :=
  { Machine.blank with
    files := Machine.blank.files.set ["players.jsonl"] (some (.file mixedContent)) }

theorem readLinesFile_lineByLine_mixed :
    machineWithMixedLines.files.pathExists "players.jsonl" = true ∧
    machineWithMixedLines.files.read "players.jsonl" = .ok mixedContent ∧
    WantsValue (PlayerStats.read playerRoom) ∧
    (∀ line, kept? (PlayerStats.read playerRoom) line =
      (Json.read (PlayerStats.read playerRoom) line).toOption) ∧
    ∃ players : List PlayerStats, players.map PlayerStats.id = ["a", "c"] ∧
      (readLinesFile (PlayerStats.read playerRoom) "players.jsonl" :
        StorageM (StateM Machine) (List PlayerStats)).run.run machineWithMixedLines =
        (.ok players, { machineWithMixedLines with
          journal := #[.unparsedLine 2 "players.jsonl", .unparsedLine 4 "players.jsonl",
            .unparsedLine 5 "players.jsonl", .unparsedLine 6 "players.jsonl",
            .readEntities 2 "players.jsonl"] }) := by
  have hexists : machineWithMixedLines.files.pathExists "players.jsonl" = true := by
    decide +kernel
  have hread : machineWithMixedLines.files.read "players.jsonl" = .ok mixedContent := rfl
  obtain ⟨hcontent, _, hkept⟩ := readLinesFile_lineByLine (PlayerStats.read playerRoom)
  have hwants := PlayerStats.read_wantsValue playerRoom
  have hplayers : (read (PlayerStats.read playerRoom) mixedContent).entities.map PlayerStats.id =
      ["a", "c"] := by decide +kernel
  have hevents : (read (PlayerStats.read playerRoom) mixedContent).events "players.jsonl" =
      [.unparsedLine 2 "players.jsonl", .unparsedLine 4 "players.jsonl",
        .unparsedLine 5 "players.jsonl", .unparsedLine 6 "players.jsonl",
        .readEntities 2 "players.jsonl"] := by
    decide +kernel
  refine ⟨hexists, hread, hwants, hkept hwants, _, hplayers, ?_⟩
  rw [(hcontent mixedContent).1 _ _ hexists hread, hevents]
  rfl

end Lines

end Allegiance
