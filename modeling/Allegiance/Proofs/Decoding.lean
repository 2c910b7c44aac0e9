import Allegiance.Proofs.LineByLine
import Allegiance.Proofs.RereadResult

namespace Allegiance

open Document (Reader)
open Json (Value)

theorem PlayerStats.reread_beq (p : PlayerStats) : (p.reread == p) = true :=
  beq_iff_same.mpr p.same_reread

theorem ClassifiedPlayer.reread_beq (p : ClassifiedPlayer) : (p.reread == p) = true := by
  have hfields : (p.reread == p) = (p.player.reread == p.player && p.team == p.team) := rfl
  rw [hfields, p.player.reread_beq, beq_self_eq_true]
  rfl

theorem map_beq_self {α : Type} [BEq α] {again : α → α} (h : ∀ x, (again x == x) = true)
    (xs : List α) : (xs.map again == xs) = true := by
  induction xs with
  | nil => rfl
  | cons x xs ih => simp [h x, ih]

/-- Two classified matches with the same in every field, players compared as the program does. -/
structure ClassifiedMatch.Same (a b : ClassifiedMatch) : Prop where
  matchId : a.matchId = b.matchId
  taxonomyVersion : a.taxonomyVersion = b.taxonomyVersion
  classifiedAt : a.classifiedAt = b.classifiedAt
  players : (a.players == b.players) = true
  summary : a.summary = b.summary

theorem ClassifiedMatch.same_rereadAll (r : ClassifiedMatch) : r.rereadAll.Same r :=
  ⟨rfl, rfl, rfl, map_beq_self ClassifiedPlayer.reread_beq r.players, rfl⟩

theorem ClassifiedMatch.read_compact (r : ClassifiedMatch) :
    Json.read ClassifiedMatch.read r.toJson.compact = .ok r.rereadAll :=
  Json.read_of_document (Json.document_compact r.whole_toJson) r.read_node_toJson

namespace Lines

/-- A content has some things in it, one a line, and a file with this content is read as all of
them in order, without a word on a line that is not read. -/
structure Holds {α : Type} [BEq α] (reader : Reader α) (write : α → Value) (xs : List α)
    (content : Bytes) : Prop where
  lines : split content = xs.map (fun x => (write x).compact)
  harvest : ∃ back, (back == xs) = true ∧ read reader content = ⟨back, []⟩ ∧
    ∀ (path : String) (machine : Machine), machine.files.pathExists path = true →
      machine.files.read path = .ok content →
      (readLinesFile reader path : StorageM (StateM Machine) (List α)).run.run machine =
        (.ok back, { machine with
          journal := machine.journal.push (.readEntities back.length path) })

theorem holds_write {α : Type} [BEq α] {reader : Reader α} {write : α → Value} {again : α → α}
    (hsame : ∀ x, (again x == x) = true)
    (hread : ∀ x, (write x).Whole ∧ reader (write x).node = .ok (again x)) (xs : List α) :
    Holds reader write xs (Lines.write (xs.map write)) := by
  have hlines : read reader (Lines.write (xs.map write)) = ⟨xs.map again, []⟩ :=
    read_write (fun x _ => hread x)
  have hfile : ReadAs reader (Lines.write (xs.map write)) ⟨xs.map again, []⟩ :=
    hlines ▸ readAs_read reader _
  exact ⟨split_write (fun x _ => (hread x).1), xs.map again, map_beq_self hsame xs, hlines, hfile⟩

end Lines

/-- Decoding undoes encoding, in either layout of a document and in lines. -/
theorem decoding_undoes_encoding :
    (∀ r : ClassifiedMatch,
      (∃ back : ClassifiedMatch, back.Same r ∧
        Json.read ClassifiedMatch.read r.toJson.compact = .ok back ∧
        Json.read ClassifiedMatch.read (r.written .document) = .ok back) ∧
      Lines.Holds (ClassifiedPlayer.read playerRoom) ClassifiedPlayer.toJson r.players
        (r.written .lines)) ∧
    (∀ ps : List PlayerStats,
      Lines.Holds (PlayerStats.read playerRoom) PlayerStats.toJson ps
        (Lines.write (ps.map PlayerStats.toJson))) := by
  constructor
  · intro r
    have hpretty :=
      Json.read_of_document (Json.document_pretty r.whole_toJson 0) r.read_node_toJson
    refine ⟨⟨r.rereadAll, r.same_rereadAll, r.read_compact, hpretty⟩, ?_⟩
    exact Lines.holds_write ClassifiedPlayer.reread_beq
      (fun p => ⟨p.whole_toJson, p.read_node_toJson (by decide)⟩) r.players
  · intro ps
    exact Lines.holds_write PlayerStats.reread_beq
      (fun p => ⟨p.whole_toJson, p.read_node_toJson (by decide)⟩) ps

/-- Players with names that hold quotes and new lines and are like those of fields. -/
def quotedPlayers : List PlayerStats :=
  [⟨"team", some "a\nb\"\x00", ⟨4, .ofList [("playerId", 3), ("\\ MP40", 1), ("\t", 0)]⟩⟩,
   ⟨"", none, ⟨4294967295, .empty⟩⟩]

def quotedLines : Bytes := Lines.write (quotedPlayers.map PlayerStats.toJson)

def machineWithPlayers : Machine :=
  { Machine.blank with
    files := Machine.blank.files.set ["players.jsonl"] (some (.file quotedLines)) }

theorem decoding_undoes_encoding_quoted :
    machineWithPlayers.files.pathExists "players.jsonl" = true ∧
    machineWithPlayers.files.read "players.jsonl" = .ok quotedLines ∧
    ∃ back, (back == quotedPlayers) = true ∧
      (readLinesFile (PlayerStats.read playerRoom) "players.jsonl" :
        StorageM (StateM Machine) (List PlayerStats)).run.run machineWithPlayers =
        (.ok back, { machineWithPlayers with
          journal := machineWithPlayers.journal.push
            (.readEntities back.length "players.jsonl") }) := by
  have hexists : machineWithPlayers.files.pathExists "players.jsonl" = true := by decide +kernel
  have hread : machineWithPlayers.files.read "players.jsonl" = .ok quotedLines := rfl
  obtain ⟨back, hback, _, hrun⟩ := (decoding_undoes_encoding.2 quotedPlayers).harvest
  exact ⟨hexists, hread, back, hback, hrun _ _ hexists hread⟩

end Allegiance
