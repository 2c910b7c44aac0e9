import Allegiance.Proofs.EarlyExit
import Allegiance.Proofs.FileContents
import Allegiance.Proofs.FileReplacement
import Allegiance.Proofs.RereadMatch
import Allegiance.Proofs.WrittenLines

namespace Allegiance

namespace ClassifiedMatch

/-- The match that is read from a file with a classified match. Lines tell no name of it. -/
def readBack (r : ClassifiedMatch) (path : String) : FileFormat → MatchStats
  | .document => ⟨r.matchId, r.reread⟩
  | .lines => ⟨Path.stem? path, r.reread⟩

theorem read_written_document (r : ClassifiedMatch) :
    Json.read MatchStats.read (r.written .document) = .ok ⟨r.matchId, r.reread⟩ :=
  Json.read_of_document (Json.document_pretty r.whole_toJson 0) r.read_match

theorem read_written_lines (r : ClassifiedMatch) :
    Lines.read (PlayerStats.read playerRoom) (r.written .lines) = ⟨r.reread, []⟩ :=
  Lines.read_write (fun p _ => ⟨p.whole_toJson, p.read_player (by decide)⟩)

theorem matchIn_written {files : FileSystem} {path : String} {format : FileFormat}
    (r : ClassifiedMatch) (hformat : FileFormat.ofPath path = .ok format)
    (hexists : files.pathExists path = true)
    (hread : files.read path = .ok (r.written format)) :
    matchIn files path = .ok (r.readBack path format) := by
  rw [matchIn, hformat]
  simp only [bind, Except.bind, statisticsAt, hexists, ↓reduceIte]
  cases format with
  | document =>
    simp only [statisticsIn, hread, documentOf, r.read_written_document]
    rfl
  | lines =>
    simp only [statisticsIn, linesIn, hexists, ↓reduceIte, hread, linesOf, r.read_written_lines]
    rfl

end ClassifiedMatch

theorem classify_congr (t : Taxonomy) (tuning : Tuning) (total : UInt32) {u v : Usage}
    (h : u.toList = v.toList) : classify t tuning total u = classify t tuning total v := by
  simp only [classify, Usage.byCountDesc, h]

theorem PlayerStats.Same.label {p q : PlayerStats} (h : p.Same q) (c : Classifier) :
    c.label p.record = c.label q.record := by
  rw [Classifier.label, Classifier.label, h.totalKills]
  exact classify_congr _ _ _ h.entries

theorem ClassifiedMatch.reread_classifyMatch (c : Classifier) (now : Instant) (m : MatchStats) :
    (c.classifyMatch now m).reread = m.players.map PlayerStats.reread := by
  simp [reread, Classifier.classifyMatch, Classifier.classifyPlayer]

/-- Players that are told of alike are labelled alike, and counted alike. -/
theorem labels_congr (c : Classifier) (now now' : Instant) {a b : MatchStats}
    (h : List.Forall₂ PlayerStats.Same a.players b.players) :
    (c.classifyMatch now a).players.map ClassifiedPlayer.team =
      (c.classifyMatch now' b).players.map ClassifiedPlayer.team ∧
    (c.classifyMatch now a).summary = (c.classifyMatch now' b).summary := by
  have hteams : (c.classifyMatch now a).players.map ClassifiedPlayer.team =
      (c.classifyMatch now' b).players.map ClassifiedPlayer.team := by
    simp only [Classifier.classifyMatch, List.map_map]
    generalize a.players = ps at h
    generalize b.players = qs at h
    induction h with
    | nil => rfl
    | cons hsame _ ih =>
      rw [List.map_cons, List.map_cons, ih]
      exact congrArg (· :: _) (hsame.label c)
  exact ⟨hteams, congrArg Summary.ofLabels hteams⟩

def awkwardMatch : MatchStats where
  matchId := some "final \"one\""
  players :=
    [⟨"team", some "a\nb\x00", ⟨4, .ofList [("playerId", 3), ("MP40", 1), ("weapon\tUsage", 0)]⟩⟩,
     ⟨"", none, ⟨0, .empty⟩⟩]

def awkwardResult : ClassifiedMatch :=
  (Classifier.mk twoWeapons .standard).classifyMatch Machine.blank.clock awkwardMatch

end Allegiance
