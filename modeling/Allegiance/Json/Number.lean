import Allegiance.Binary64.Arithmetic
import Allegiance.Binary64.Decimal
import Allegiance.Document.Node
import Allegiance.Text.Utf8

namespace Allegiance.Json

open Document (Break Flaw Node)

def isDigit (b : UInt8) : Bool := 48 ≤ b && b ≤ 57

def digitValue (b : UInt8) : Nat := b.toNat - 48

/-- Digits that the significand of 64 bits has no room for are left over. -/
def accumulate (significand : Nat) : Bytes → Nat × Bytes
  | [] => (significand, [])
  | d :: rest =>
    let next := 10 * significand + digitValue d
    if next < UInt64.size then accumulate next rest else (significand, d :: rest)

def powerOfTen (n : Nat) : Binary64 := .ofDecimal false 1 n

/-- Powers below the table of doubles are divided out in steps. -/
def scale (f : Binary64) (exponent : Int) : Option Binary64 :=
  if 0 ≤ exponent then
    if exponent ≤ 308 then
      let x := f * powerOfTen exponent.toNat
      if x.isFinite then some x else none
    else if f = .zero false then some f else none
  else if -308 ≤ exponent then some (f / powerOfTen exponent.natAbs)
  else if f = .zero false then some f
  else scale (f / powerOfTen 308) (exponent + 308)
termination_by exponent.natAbs
decreasing_by omega

structure Literal where
  negative : Bool
  whole : Bytes
  fraction : Option Bytes
  exponent : Option Int

namespace Literal

/-- The number a literal stands for. Zero has a sign only as a double. -/
def node (l : Literal) : Node :=
  let (m, surplus) := accumulate 0 l.whole
  if l.fraction.isNone ∧ l.exponent.isNone ∧ surplus.isEmpty ∧ !l.negative then .integer m
  else if l.fraction.isNone ∧ l.exponent.isNone ∧ surplus.isEmpty ∧ 0 < m ∧ m ≤ UInt64.size / 2 then
    .integer (-m)
  else
    let fraction := l.fraction.getD []
    let (m, unused) := accumulate m fraction
    let used := fraction.length - unused.length
    match scale (.ofNat m) (surplus.length - used + l.exponent.getD 0) with
    | some x => .real (if l.negative then -x else x)
    | none => .flaw .range

end Literal

def brokenNumber (rest : Bytes) : Node :=
  .flaw (.number (if rest.isEmpty then .truncated else .malformed))

def digits (b : Bytes) : Except Node (Bytes × Bytes) :=
  let ds := b.takeWhile isDigit
  if ds.isEmpty then .error (brokenNumber b) else .ok (ds, b.dropWhile isDigit)

def wholeDigits (b : Bytes) : Except Node (Bytes × Bytes) := do
  let (ds, rest) ← digits b
  if ds.head? = some 48 ∧ ds ≠ [48] then .error (.flaw (.number .malformed)) else .ok (ds, rest)

def fractionDigits (b : Bytes) : Except Node (Option Bytes × Bytes) :=
  match b with
  | c :: rest =>
    if c = 46 then do
      let (ds, rest) ← digits rest
      pure (some ds, rest)
    else .ok (none, b)
  | [] => .ok (none, b)

def exponentPart (b : Bytes) : Except Node (Option Int × Bytes) :=
  match b with
  | c :: rest =>
    if c = 101 ∨ c = 69 then do
      let (negative, rest) := match rest with
        | s :: r => if s = 45 then (true, r) else if s = 43 then (false, r) else (false, rest)
        | [] => (false, rest)
      let (ds, rest) ← digits rest
      let n : Int := ds.foldl (fun n d => 10 * n + digitValue d) 0
      pure (some (if negative then -n else n), rest)
    else .ok (none, b)
  | [] => .ok (none, b)

def literal (negative : Bool) (b : Bytes) : Except Node (Literal × Bytes) := do
  let (whole, rest) ← wholeDigits b
  let (fraction, rest) ← fractionDigits rest
  let (exponent, rest) ← exponentPart rest
  pure (⟨negative, whole, fraction, exponent⟩, rest)

/-- A broken number has no rest. -/
def number (negative : Bool) (b : Bytes) : Node × Bytes :=
  match literal negative b with
  | .ok (l, rest) => (l.node, rest)
  | .error n => (n, [])

theorem length_digits {b : Bytes} {r : Bytes × Bytes} (h : digits b = .ok r) :
    r.2.length < b.length := by
  simp only [digits] at h
  split at h
  · cases h
  · rename_i hne
    cases h
    have := congrArg List.length (List.takeWhile_append_dropWhile (p := isDigit) (l := b))
    have hpos : 0 < (b.takeWhile isDigit).length := by
      apply List.length_pos_iff.mpr
      intro he
      simp [he] at hne
    simp only [List.length_append] at this ⊢
    omega

theorem length_wholeDigits {b : Bytes} {r : Bytes × Bytes} (h : wholeDigits b = .ok r) :
    r.2.length < b.length := by
  simp only [wholeDigits, bind, Except.bind] at h
  split at h
  · cases h
  · rename_i p hp
    split at h
    · cases h
    · cases h
      exact length_digits hp

theorem length_fractionDigits {b : Bytes} {r : Option Bytes × Bytes}
    (h : fractionDigits b = .ok r) : r.2.length ≤ b.length := by
  unfold fractionDigits at h
  split at h
  · split at h
    · simp only [bind, Except.bind] at h
      split at h
      · cases h
      · rename_i p hp
        cases h
        have := length_digits hp
        simp only [List.length_cons]
        omega
    · cases h
      simp
  · cases h
    simp

theorem length_exponentPart {b : Bytes} {r : Option Int × Bytes}
    (h : exponentPart b = .ok r) : r.2.length ≤ b.length := by
  unfold exponentPart at h
  split at h
  · rename_i rest
    split at h
    · simp only [bind, Except.bind] at h
      split at h
      · cases h
      · rename_i p hp
        cases h
        have := length_digits hp
        revert this
        cases rest with
        | nil => simp
        | cons s r =>
          simp only [List.length_cons]
          split
          · simp; omega
          · split <;> simp <;> omega
    · cases h
      simp
  · cases h
    simp

theorem length_number (negative : Bool) (b : Bytes) :
    (number negative b).2.length ≤ b.length - 1 := by
  unfold number
  split
  · rename_i l rest h
    simp only [literal, bind, Except.bind] at h
    split at h
    · cases h
    · rename_i p hp
      split at h
      · cases h
      · rename_i q hq
        split at h
        · cases h
        · rename_i s hs
          cases h
          have := length_wholeDigits hp
          have := length_fractionDigits hq
          have := length_exponentPart hs
          simp only
          omega
  · simp

end Allegiance.Json
