import Allegiance.Proofs.MatchSummary

namespace Allegiance

namespace Tuning

variable {tuning : Tuning}

def withPolicy (tuning : Tuning) (policy : ZeroKillPolicy) : Tuning :=
  { tuning with zeroKills := policy }

theorem exists_threshold_zero (h : tuning.RatioAbove 0) :
    ∃ x : Binary64.Finite, tuning.threshold 0 = .finite x ∧ x.value = 0 := by
  obtain ⟨r, hr, hlow, hone⟩ := h
  obtain ⟨x, hx, hvalue⟩ := exists_threshold_eq_finite 0 hr hlow hone
  refine ⟨x, hx, ?_⟩
  rw [hvalue, UInt32.toNat_zero, Nat.cast_zero, zero_mul, Binary64.rounded_zero]

/-- Out of no kills, any number of kills is enough. -/
theorem reaches_zero (h : tuning.RatioAbove 0) (tally : Tally) (f : Faction) :
    tally.reaches f (tuning.threshold 0) = true := by
  obtain ⟨x, hx, hvalue⟩ := exists_threshold_zero h
  rw [Tally.reaches, hx, Binary64.le_ofNat_iff hvalue.ge (by rw [hvalue]; positivity)
    (UInt64.toNat_lt _), hvalue]
  positivity

end Tuning

theorem Usage.byCountDesc_eq_nil {u : Usage} : u.byCountDesc = [] ↔ u.isEmpty = true := by
  rw [← List.isEmpty_iff, u.byCountDesc_perm.isEmpty_eq, toList, Array.isEmpty_toList, isEmpty]

section Policy

variable {t : Taxonomy} {tuning : Tuning} {total : UInt32} {u : Usage}

theorem classify_withPolicy (hpos : 0 < total) (policy policy' : ZeroKillPolicy) :
    classify t (tuning.withPolicy policy) total u =
      classify t (tuning.withPolicy policy') total u := by
  rw [classify_of_pos hpos, classify_of_pos hpos]
  rfl

theorem classify_unknown_zero : classify t (tuning.withPolicy .unknown) 0 u = .unknown := by
  simp [classify, Tuning.withPolicy]

theorem classify_legacy_zero :
    classify t (tuning.withPolicy .legacy) 0 u =
      walk t.factionOf (tuning.threshold 0) u.byCountDesc .empty := by
  simp [classify, Tuning.withPolicy, Tuning.threshold]

theorem classify_legacy_empty (hu : u.isEmpty = true) :
    classify t (tuning.withPolicy .legacy) 0 u = .unknown := by
  rw [classify_legacy_zero, Usage.byCountDesc_eq_nil.mpr hu]
  rfl

/-- The walk ends at the first entry, for Axis, which is asked first. -/
theorem classify_legacy_listed (h : tuning.RatioAbove 0) (hu : u.isEmpty = false) :
    classify t (tuning.withPolicy .legacy) 0 u = .axis := by
  rw [classify_legacy_zero]
  cases hwalk : u.byCountDesc with
  | nil =>
    rw [Usage.byCountDesc_eq_nil.mp hwalk] at hu
    cases hu
  | cons e rest =>
    rw [walk, Tally.dominant, if_pos (Tuning.reaches_zero h _ _)]
    rfl

end Policy

/-- No kills, though weapons are listed. -/
def KillRecord.listsWeaponsOnly (r : KillRecord) : Bool := r.totalKills = 0 && !r.usage.isEmpty

namespace Classifier

def withPolicy (c : Classifier) (policy : ZeroKillPolicy) : Classifier :=
  { c with tuning := c.tuning.withPolicy policy }

variable {c : Classifier}

theorem label_legacy_of_listsWeaponsOnly (h : c.tuning.RatioAbove 0) {r : KillRecord}
    (hr : r.listsWeaponsOnly = true) :
    (c.withPolicy .legacy).label r = .axis ∧ (c.withPolicy .unknown).label r = .unknown := by
  simp only [KillRecord.listsWeaponsOnly, Bool.and_eq_true, decide_eq_true_eq,
    Bool.not_eq_true'] at hr
  rw [label, label, hr.1]
  exact ⟨classify_legacy_listed h hr.2, classify_unknown_zero⟩

theorem label_legacy_of_not_listsWeaponsOnly {r : KillRecord}
    (hr : r.listsWeaponsOnly = false) :
    (c.withPolicy .legacy).label r = (c.withPolicy .unknown).label r := by
  by_cases hzero : r.totalKills = 0
  · have hempty : r.usage.isEmpty = true := by
      simpa [KillRecord.listsWeaponsOnly, hzero] using hr
    rw [label, label, hzero]
    exact (classify_legacy_empty hempty).trans classify_unknown_zero.symm
  · exact classify_withPolicy (UInt32.pos_iff_ne_zero.mpr hzero) _ _

/-- Among the labels of some players, as many are Axis instead of unknown as list weapons only. -/
theorem count_legacy (h : c.tuning.RatioAbove 0) (ps : List PlayerStats) (l : Label) :
    (ps.map (fun p => (c.withPolicy .legacy).label p.record)).count l +
        (if l = .unknown then ps.countP (fun p => p.record.listsWeaponsOnly) else 0) =
      (ps.map (fun p => (c.withPolicy .unknown).label p.record)).count l +
        (if l = .axis then ps.countP (fun p => p.record.listsWeaponsOnly) else 0) := by
  induction ps with
  | nil => simp
  | cons p ps ih =>
    simp only [List.map_cons, List.count_cons, List.countP_cons]
    cases hp : p.record.listsWeaponsOnly with
    | false =>
      rw [label_legacy_of_not_listsWeaponsOnly hp]
      simp only [Bool.false_eq_true, ↓reduceIte, Nat.add_zero]
      omega
    | true =>
      obtain ⟨hlegacy, hunknown⟩ := label_legacy_of_listsWeaponsOnly h hp
      rw [hlegacy, hunknown]
      cases l <;> simp at ih ⊢ <;> omega

/-- One match under both policies. Players with kills have one label under both, players without
kills or weapons are unknown under both, and players without kills but with weapons, whatever these
are, are Axis under the legacy policy and unknown otherwise. The summaries differ by the number of
the latter, in these two counters. -/
theorem classifyMatch_zeroKills (c : Classifier) (hratio : c.tuning.RatioAbove 0)
    (now now' : Instant) (m : MatchStats) (h : m.players.length < 2 ^ 32) :
    let legacy := (c.withPolicy .legacy).classifyMatch now m
    let unknown := (c.withPolicy .unknown).classifyMatch now' m
    let z := (m.players.filter (fun p => p.record.totalKills = 0 ∧ ¬ p.record.usage.isEmpty)).length
    (∀ (i : Nat) (p : PlayerStats), m.players[i]? = some p →
      ∃ a b, legacy.players[i]? = some ⟨p, a⟩ ∧ unknown.players[i]? = some ⟨p, b⟩ ∧
        (0 < p.record.totalKills → a = b) ∧
        (p.record.totalKills = 0 → p.record.usage.isEmpty = true → a = .unknown ∧ b = .unknown) ∧
        (p.record.totalKills = 0 → p.record.usage.isEmpty = false → a = .axis ∧ b = .unknown)) ∧
    legacy.summary.axis.toNat = unknown.summary.axis.toNat + z ∧
    legacy.summary.unknown.toNat + z = unknown.summary.unknown.toNat ∧
    legacy.summary.allies = unknown.summary.allies ∧
    legacy.summary.mixed = unknown.summary.mixed := by
  intro legacy unknown z
  have hz : z = m.players.countP (fun p => p.record.listsWeaponsOnly) := by
    rw [List.countP_eq_length_filter]
    simp [z, KillRecord.listsWeaponsOnly]
  -- Both summaries count labels, and the counts of labels are those of one list, said twice.
  have hcount (l : Label) : (legacy.summary.count l).toNat + (if l = .unknown then z else 0) =
      (unknown.summary.count l).toNat + (if l = .axis then z else 0) := by
    rw [hz, (c.withPolicy .legacy).counts_summary now h l,
      (c.withPolicy .unknown).counts_summary now' h l]
    exact count_legacy hratio m.players l
  refine ⟨?_, hcount .axis, hcount .unknown, ?_, ?_⟩
  · intro i p hp
    refine ⟨_, _, getElem?_players _ now hp, getElem?_players _ now' hp, ?_, ?_, ?_⟩
    · intro hpos
      exact classify_withPolicy hpos _ _
    · intro hzero hempty
      rw [hzero]
      exact ⟨classify_legacy_empty hempty, classify_unknown_zero⟩
    · intro hzero hlisted
      rw [hzero]
      exact ⟨classify_legacy_listed hratio hlisted, classify_unknown_zero⟩
  · exact UInt32.toNat_inj.mp (hcount .allies)
  · exact UInt32.toNat_inj.mp (hcount .mixed)

/-- A match with a player who has a weapon but no kills, and one who has kills. -/
def bystander : MatchStats :=
  ⟨none, [⟨"7", none, ⟨0, .ofList [("M1 GARAND", 0)]⟩⟩, ⟨"8", none, ⟨4, tied⟩⟩]⟩

/-- The legacy policy counts one more for Axis, though the weapon is of the Allies. -/
theorem classifyMatch_zeroKills_bystander :
    Tuning.standard.RatioAbove 0 ∧ bystander.players.length < 2 ^ 32 ∧
    (((Classifier.mk twoWeapons .standard).withPolicy .legacy).classifyMatch
        Machine.blank.clock bystander).summary.axis.toNat =
      (((Classifier.mk twoWeapons .standard).withPolicy .unknown).classifyMatch
        Machine.blank.clock bystander).summary.axis.toNat + 1 := by
  have hroom : bystander.players.length < 2 ^ 32 := by decide
  obtain ⟨-, haxis, -⟩ := classifyMatch_zeroKills ⟨twoWeapons, .standard⟩
    Tuning.standard_ratioAbove Machine.blank.clock Machine.blank.clock bystander hroom
  exact ⟨Tuning.standard_ratioAbove, hroom, haxis⟩

end Classifier

end Allegiance
