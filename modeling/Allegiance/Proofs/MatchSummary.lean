import Mathlib.Data.List.Induction
import Allegiance.Match.Classifier
import Allegiance.Proofs.EarlyExit
import Allegiance.Proofs.Looking

namespace Allegiance

namespace Summary

variable {s : Summary} {ls : List Label}

/-- A summary that has counted some labels, and no counter of it has wrapped. -/
def Counts (s : Summary) (ls : List Label) : Prop := ∀ l, (s.count l).toNat = ls.count l

theorem counts_empty : empty.Counts [] := by
  intro l
  cases l <;> rfl

theorem ofLabels_concat (ls : List Label) (l : Label) :
    ofLabels (ls ++ [l]) = (ofLabels ls).record l := by
  simp [ofLabels]

theorem count_record (s : Summary) (l k : Label) :
    (s.record l).count k = if l = k then s.count k + 1 else s.count k := by
  cases l <;> cases k <;> rfl

theorem Counts.record (h : s.Counts ls) (hroom : ls.length + 1 < 2 ^ 32) (l : Label) :
    (s.record l).Counts (ls ++ [l]) := by
  intro k
  have hcount : ls.count k ≤ ls.length := List.count_le_length
  rw [count_record, List.count_append]
  split
  · rename_i hk
    subst hk
    rw [UInt32.toNat_add, h l, List.count_singleton_self, UInt32.toNat_one]
    exact Nat.mod_eq_of_lt (by omega)
  · rename_i hk
    rw [h k, List.count_singleton, if_neg (by simpa using hk), Nat.add_zero]

theorem counts_ofLabels (h : ls.length < 2 ^ 32) : (ofLabels ls).Counts ls := by
  induction ls using List.reverseRecOn with
  | nil => exact counts_empty
  | append_singleton ls l ih =>
    rw [List.length_append, List.length_singleton] at h
    rw [ofLabels_concat]
    exact (ih (by omega)).record h l

theorem count_add_count (ls : List Label) :
    ls.count .axis + ls.count .allies + ls.count .mixed + ls.count .unknown = ls.length := by
  induction ls with
  | nil => rfl
  | cons l ls ih =>
    rw [List.length_cons, ← ih]
    cases l <;> simp <;> omega

/-- The counters of a summary add up to the number of labels, as numbers. -/
theorem Counts.sum_eq (h : s.Counts ls) :
    s.axis.toNat + s.allies.toNat + s.mixed.toNat + s.unknown.toNat = ls.length := by
  rw [← count_add_count, ← h .axis, ← h .allies, ← h .mixed, ← h .unknown]
  rfl

theorem Counts.toNat_total (h : s.Counts ls) (hroom : ls.length < 2 ^ 32) :
    s.total.toNat = ls.length := by
  have hsum := h.sum_eq
  simp only [total, UInt32.toNat_add]
  omega

end Summary

namespace Classifier

variable (c : Classifier)

theorem length_players (now : Instant) (m : MatchStats) :
    (c.classifyMatch now m).players.length = m.players.length := by
  simp [classifyMatch]

theorem getElem?_players (now : Instant) {m : MatchStats} {i : Nat} {p : PlayerStats}
    (h : m.players[i]? = some p) : (c.classifyMatch now m).players[i]? =
      some ⟨p, classify c.taxonomy c.tuning p.record.totalKills p.record.usage⟩ := by
  simp [classifyMatch, h, classifyPlayer, label]

def teams (m : MatchStats) : List Label := m.players.map (fun p => c.label p.record)

theorem teams_players (now : Instant) (m : MatchStats) :
    (c.classifyMatch now m).players.map ClassifiedPlayer.team = c.teams m := by
  simp [classifyMatch, teams, classifyPlayer]

@[simp] theorem length_teams (m : MatchStats) : (c.teams m).length = m.players.length := by
  simp [teams]

theorem counts_summary (now : Instant) {m : MatchStats} (h : m.players.length < 2 ^ 32) :
    (c.classifyMatch now m).summary.Counts (c.teams m) := by
  rw [← c.teams_players now m]
  apply Summary.counts_ofLabels
  rwa [List.length_map, List.length_map]

/-- A match is labelled player by player, each from the kill record and nothing else. No counter of
the summary has wrapped, so two matches can be labelled apart and put together afterwards. -/
structure LabelsEach (m : MatchStats) (result : ClassifiedMatch) : Prop where
  matchId : result.matchId = m.matchId
  version : result.taxonomyVersion = c.taxonomy.version
  length : result.players.length = m.players.length
  players : ∀ (i : Nat) (p : PlayerStats), m.players[i]? = some p → result.players[i]? =
    some ⟨p, classify c.taxonomy c.tuning p.record.totalKills p.record.usage⟩
  count : ∀ l,
    (result.summary.count l).toNat = (result.players.filter (fun p => p.team = l)).length
  total : result.summary.total.toNat = m.players.length
  split : ∀ (a b : MatchStats) (early late : Instant), m.players = a.players ++ b.players →
    result.players = (c.classifyMatch early a).players ++ (c.classifyMatch late b).players ∧
    ∀ l, (result.summary.count l).toNat =
      ((c.classifyMatch early a).summary.count l).toNat +
        ((c.classifyMatch late b).summary.count l).toNat

theorem classifyMatch_pointwise (now : Instant) (m : MatchStats) (h : m.players.length < 2 ^ 32) :
    c.LabelsEach m (c.classifyMatch now m) := by
  have hcounts := c.counts_summary now h
  refine
    { matchId := rfl
      version := rfl
      length := c.length_players now m
      players := fun i p hp => c.getElem?_players now hp
      count := ?count
      total := ?total
      split := ?split }
  case count =>
    intro l
    rw [hcounts l, ← c.teams_players now m, List.count_eq_length_filter, List.filter_map,
      List.length_map]
    rfl
  case total =>
    rw [hcounts.toNat_total (by simpa using h), length_teams]
  case split =>
    intro a b early late hsplit
    have hteams : c.teams m = c.teams a ++ c.teams b := by
      simp [teams, hsplit]
    rw [hsplit, List.length_append] at h
    refine ⟨by simp [classifyMatch, hsplit], ?_⟩
    intro l
    rw [hcounts l, hteams, List.count_append, c.counts_summary early (m := a) (by omega) l,
      c.counts_summary late (m := b) (by omega) l]

/-- A match that lists one player twice. -/
def twice : MatchStats := ⟨some "1", [⟨"7", none, ⟨4, tied⟩⟩, ⟨"7", none, ⟨4, tied⟩⟩]⟩

/-- Both of them are labelled and counted. -/
theorem classifyMatch_pointwise_twice :
    twice.players.length < 2 ^ 32 ∧
    ((Classifier.mk twoWeapons .standard).classifyMatch
      Machine.blank.clock twice).summary.allies.toNat = 2 := by
  have hroom : twice.players.length < 2 ^ 32 := by decide
  refine ⟨hroom, ?_⟩
  have h := (classifyMatch_pointwise ⟨twoWeapons, .standard⟩ Machine.blank.clock twice
    hroom).count .allies
  simpa [classifyMatch, twice, classifyPlayer, label, classify_tied, Summary.count] using h

end Classifier

end Allegiance
