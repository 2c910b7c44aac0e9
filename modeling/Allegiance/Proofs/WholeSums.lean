import Allegiance.Proofs.EarlyExit

namespace Allegiance

theorem allKills_take_le (es : Entries) (n : Nat) : allKills (es.take n) ≤ allKills es := by
  calc allKills (es.take n) ≤ allKills (es.take n) + allKills (es.drop n) := Nat.le_add_right _ _
    _ = allKills es := by rw [← allKills_append, List.take_append_drop]

theorem sideKills_le_allKills (side : String → Option Faction) (f : Faction) (es : Entries) :
    sideKills side f es ≤ allKills es := by
  have := sideKills_add_le side es
  cases f <;> omega

theorem allKills_le (es : Entries) : allKills es ≤ es.length * (2 ^ 32 - 1) := by
  induction es with
  | nil => exact Nat.le_refl 0
  | cons e es ih =>
    have hlt := e.2.toNat_lt
    rw [allKills_cons, List.length_cons, Nat.succ_mul]
    omega

theorem Usage.kills_lt {u : Usage} (h : u.size ≤ 2 ^ 32 + 1) : u.kills < 2 ^ 64 := by
  have hle := allKills_le u.toList
  rw [toList, Array.length_toList] at hle
  change u.kills ≤ u.size * (2 ^ 32 - 1) at hle
  omega

namespace Usage

variable {u : Usage}

/-- The words that the sum of all counts goes through, from zero on. -/
def sums (u : Usage) : List UInt64 := u.toList.scanl (fun sum e => sum + e.2.toUInt64) 0

theorem getLast?_sums (u : Usage) : u.sums.getLast? = some u.total := by
  rw [sums, List.getLast?_scanl, total, ← Array.foldl_toList, toList]

theorem toNat_of_getElem?_sums (hroom : u.kills < 2 ^ 64) {n : Nat} {sum : UInt64}
    (h : u.sums[n]? = some sum) : sum.toNat = allKills (u.toList.take n) := by
  rw [sums, List.getElem?_scanl] at h
  split at h
  · cases h
    rw [toNat_foldl_add, UInt64.toNat_zero, Nat.zero_add]
    exact Nat.mod_eq_of_lt (lt_of_le_of_lt (allKills_take_le u.toList n) hroom)
  · cases h

end Usage

/-- The label a tally stands for where a walk ends with it. -/
def Tally.verdict (t : Tally) (threshold : Binary64) : Label :=
  (t.dominant threshold).elim t.fallback Faction.label

/-- The tallies of a walk, one for each weapon that is counted. The first one that a side dominates
is the last. -/
def tallies (side : String → Option Faction) (threshold : Binary64) : Entries → Tally → List Tally
  | [], _ => []
  | (weapon, count) :: rest, tally =>
    let next := tally.add (side weapon) count
    next :: match next.dominant threshold with
      | some _ => []
      | none => tallies side threshold rest next

/-- The walk with its sums kept as numbers, which no word bounds. -/
def walkWhole (side : String → Option Faction) (threshold : Binary64) :
    Entries → (Faction → Nat) → Label
  | [], sum => undecided (sum .axis) (sum .allies)
  | (weapon, count) :: rest, sum =>
    let next := fun f => sum f + if side weapon = some f then count.toNat else 0
    if threshold.le (.ofNat (next .axis)) then .axis
    else if threshold.le (.ofNat (next .allies)) then .allies
    else walkWhole side threshold rest next

section Steps

variable {side : String → Option Faction} {threshold : Binary64} {before rest : Entries}
  {e : String × UInt32} {tally : Tally}

/-- A walk says what its last tally stands for. -/
theorem walk_eq_verdict (es : Entries) (tally : Tally) :
    walk side threshold es tally =
      (tallies side threshold es tally).getLast?.elim tally.fallback (·.verdict threshold) := by
  induction es generalizing tally with
  | nil => rfl
  | cons e es ih =>
    simp only [walk, tallies, List.getLast?_cons, Option.elim_some]
    cases hd : (tally.add (side e.1) e.2).dominant threshold with
    | some f => simp [Tally.verdict, hd]
    | none =>
      -- The rest of the walk has a last tally, or there is no rest and this one is the last.
      simp only [ih]
      cases (tallies side threshold es (tally.add (side e.1) e.2)).getLast? with
      | none => simp [Tally.verdict, hd]
      | some last => rfl

theorem Tally.Counts.next (h : tally.Counts side before)
    (hroom : allKills (before ++ e :: rest) < 2 ^ 64) :
    (tally.add (side e.1) e.2).Counts side (before ++ [e]) := by
  apply h.add
  intro f
  have hside := sideKills_le_allKills side f before
  rw [allKills_append, allKills_cons] at hroom
  omega

theorem Tally.Counts.axis_add_allies_le (h : tally.Counts side before) :
    tally.axis.toNat + tally.allies.toNat ≤ allKills before := by
  have hle := sideKills_add_le side before
  rwa [← h .axis, ← h .allies] at hle

theorem Tally.Counts.reaches_eq (h : tally.Counts side before) (f : Faction) :
    tally.reaches f threshold = threshold.le (.ofNat (sideKills side f before)) := by
  rw [reaches, h f]

/-- After every step of a walk the tally has counted the weapons so far. -/
theorem counts_of_getElem?_tallies (hcounts : tally.Counts side before)
    (hroom : allKills (before ++ rest) < 2 ^ 64) {n : Nat} {tally' : Tally}
    (h : (tallies side threshold rest tally)[n]? = some tally') :
    tally'.Counts side (before ++ rest.take (n + 1)) := by
  induction rest generalizing before tally n with
  | nil => cases h
  | cons e rest ih =>
    have hnext := hcounts.next hroom
    cases n with
    | zero =>
      simp only [tallies, List.getElem?_cons_zero, Option.some.injEq] at h
      subst h
      exact hnext
    | succ n =>
      simp only [tallies, List.getElem?_cons_succ] at h
      split at h
      · cases h
      · rw [List.append_cons] at hroom
        rw [List.take_succ_cons, List.append_cons]
        exact ih hnext hroom h

theorem walk_eq_walkWhole (hcounts : tally.Counts side before)
    (hroom : allKills (before ++ rest) < 2 ^ 64) :
    walk side threshold rest tally =
      walkWhole side threshold rest (fun f => sideKills side f before) := by
  induction rest generalizing before tally with
  | nil => exact Tally.fallback_eq hcounts
  | cons e rest ih =>
    have hnext := hcounts.next hroom
    rw [List.append_cons] at hroom
    simp only [walk, walkWhole, ← sideKills_snoc, Tally.dominant, hnext.reaches_eq, ih hnext hroom]
    split_ifs <;> rfl

end Steps

/-- The tally after a step of a walk over the weapons `walked`: its two sums are those of the kills,
they are within the kills walked and these within all, and the threshold is held against these
sums. -/
structure TrueSums (u : Usage) (t : Taxonomy) (threshold : Binary64) (walked : Entries)
    (tally : Tally) : Prop where
  counts : tally.Counts t.factionOf walked
  sides_le : tally.axis.toNat + tally.allies.toNat ≤ allKills walked
  walked_le : allKills walked ≤ u.total.toNat
  tests : ∀ f, tally.reaches f threshold =
    threshold.le (.ofNat (sideKills t.factionOf f walked))

/-- No sum wraps: the tally after every step of the walk has the true sums, and so has the sum of all
counts after every count. The label, which is told by the last tally, is that of a walk which adds
whole numbers. -/
structure NoneWraps (t : Taxonomy) (tuning : Tuning) (total : UInt32) (u : Usage) : Prop where
  steps : ∀ (n : Nat) (tally : Tally),
    (tallies t.factionOf (tuning.threshold total) u.byCountDesc .empty)[n]? = some tally →
      TrueSums u t (tuning.threshold total) (u.byCountDesc.take (n + 1)) tally
  sums : ∀ (n : Nat) (sum : UInt64), u.sums[n]? = some sum →
    sum.toNat = allKills (u.toList.take n) ∧ allKills (u.toList.take n) ≤ u.kills
  last : u.sums.getLast? = some u.total
  kills : u.total.toNat = u.kills
  room : u.kills < 2 ^ 64
  consistent : (KillRecord.mk total u).isConsistent = true ↔ u.kills ≤ total.toNat
  verdict : classify t tuning total u =
    (if total = 0 ∧ tuning.zeroKills = .unknown then .unknown
    else (tallies t.factionOf (tuning.threshold total) u.byCountDesc .empty).getLast?.elim
      .unknown (·.verdict (tuning.threshold total)))
  whole : classify t tuning total u =
    (if total = 0 ∧ tuning.zeroKills = .unknown then .unknown
    else walkWhole t.factionOf (tuning.threshold total) u.byCountDesc (fun _ => 0))

theorem wholeSums_of_size_le (t : Taxonomy) (tuning : Tuning) (total : UInt32) (u : Usage)
    (h : u.size ≤ 2 ^ 32) : NoneWraps t tuning total u := by
  have hroom : u.kills < 2 ^ 64 := Usage.kills_lt (Nat.le_succ_of_le h)
  have htotal := Usage.toNat_total hroom
  -- The walk goes by rank, the sum of all counts by entry; the kills are the same.
  have hranked : allKills u.byCountDesc = u.kills := allKills_perm u.byCountDesc_perm
  have hstart := Tally.counts_empty t.factionOf
  refine
    { steps := ?steps
      sums := ?sums
      last := u.getLast?_sums
      kills := htotal
      room := hroom
      consistent := KillRecord.isConsistent_iff hroom
      verdict := ?verdict
      whole := ?whole }
  case steps =>
    intro n tally hstep
    have hcounts := counts_of_getElem?_tallies hstart (hranked ▸ hroom) hstep
    rw [List.nil_append] at hcounts
    refine ⟨hcounts, hcounts.axis_add_allies_le, ?_, hcounts.reaches_eq⟩
    rw [htotal, ← hranked]
    exact allKills_take_le _ _
  case sums =>
    intro n sum hsum
    exact ⟨Usage.toNat_of_getElem?_sums hroom hsum, allKills_take_le _ _⟩
  case verdict =>
    rw [classify, walk_eq_verdict]
    rfl
  case whole =>
    rw [classify, walk_eq_walkWhole hstart (hranked ▸ hroom)]
    rfl

/-- Weapons with as many kills as a count can hold: of neither side, of Axis and of the Allies. -/
def largestCounts : Usage :=
  .ofList [("SHOVEL", 4294967295), ("MP40", 4294967295), ("M1 GARAND", 4294967295)]

/-- Their sum is three times the largest count, which no total allows, and the walk passes over the
weapon of neither side to name Axis. -/
theorem wholeSums_of_size_le_largest :
    largestCounts.size ≤ 2 ^ 32 ∧ largestCounts.total.toNat = 3 * (2 ^ 32 - 1) ∧
      (KillRecord.mk 4294967295 largestCounts).isConsistent = false ∧
      classify twoWeapons .standard 4294967295 largestCounts = .axis := by
  have hfew : largestCounts.size ≤ 2 ^ 32 := by decide +kernel
  have hkills : largestCounts.kills = 3 * (2 ^ 32 - 1) := by decide +kernel
  have h := wholeSums_of_size_le twoWeapons .standard 4294967295 largestCounts hfew
  refine ⟨hfew, h.kills.trans hkills, Bool.eq_false_iff.mpr ?_, ?_⟩
  · rw [Ne, h.consistent, hkills]
    decide
  · rw [h.whole, Usage.byCountDesc_of_pairwise (by decide +kernel)]
    decide +kernel

end Allegiance
