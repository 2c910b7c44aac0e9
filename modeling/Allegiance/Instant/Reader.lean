import Allegiance.Instant.Basic
import Allegiance.Text.Blank

namespace Allegiance

inductive InstantFlaw
  | cutShort
  | badCharacter
  | outOfRange
  | surplus
  | noSuchTime
  deriving DecidableEq

namespace InstantFlaw

def message : InstantFlaw → String
  | cutShort => "premature end of input"
  | badCharacter => "input contains invalid characters"
  | outOfRange => "input is out of range"
  | surplus => "trailing input"
  | noSuchTime => "no possible date and time matching input"

end InstantFlaw

namespace Instant

abbrev Scan := StateT (List Char) (Except InstantFlaw)

namespace Scan

def digitValue (c : Char) : Nat := c.toNat - '0'.toNat

/-- At least one digit, and of `width` characters (of all, if no width is given) those up to the
first that is none. -/
def number (width : Option Nat) : Scan Nat := fun cs =>
  match cs with
  | [] => .error .cutShort
  | c :: _ =>
    if c.isDigit then
      let ds := ((width.elim cs cs.take).takeWhile Char.isDigit)
      .ok (ds.foldl (fun n d => 10 * n + digitValue d) 0, cs.drop ds.length)
    else .error .badCharacter

def blank : Scan Unit := modify Text.trimStart

def literal (c : Char) : Scan Unit := fun cs =>
  match cs with
  | [] => .error .cutShort
  | d :: rest => if d = c then .ok ((), rest) else .error .badCharacter

def field (low high : Nat) : Scan Nat := do
  blank
  let n ← number (some 2)
  if low ≤ n ∧ n ≤ high then pure n else throw .outOfRange

/-- A year: up to four digits, or a sign and any number of them. -/
def year : Scan Int := do
  blank
  let y ← match (← get) with
    | '-' :: rest => do set rest; pure (-((← number none : Nat) : Int))
    | '+' :: rest => do set rest; pure ((← number none : Nat) : Int)
    | _ => do pure ((← number (some 4) : Nat) : Int)
  if -2147483648 ≤ y ∧ y < 2147483648 then pure y else throw .outOfRange

def separator : Scan Unit := fun cs =>
  match cs with
  | [] => .error .cutShort
  | c :: rest => if c = 'T' ∨ c = 't' ∨ c = ' ' then .ok ((), rest) else .error .badCharacter

/-- A point and a fraction of a second, if there is a point. Digits after the ninth do not count. -/
def fraction : Scan Nat := do
  match (← get) with
  | '.' :: rest =>
    set rest
    let n ← number (some 9)
    let width := rest.length - (← get).length
    modify (List.dropWhile Char.isDigit)
    pure (n * Nat.pow 10 (9 - width))
  | _ => pure 0

def pair (high : Nat) : Scan Nat := fun cs =>
  match cs with
  | [] => .error .cutShort
  | [c] => .error (if c.utf8Size < 2 then .cutShort else .badCharacter)
  | c :: d :: rest =>
    if c.isDigit ∧ d.isDigit then
      if digitValue c ≤ high then .ok (10 * digitValue c + digitValue d, rest)
      else .error .outOfRange
    else .error .badCharacter

def offset : Scan Int := do
  let negative ← match (← get) with
    | [] => throw .cutShort
    | c :: rest =>
      if c = '+' then do set rest; pure false
      else if c = '-' ∨ c = '\u2212' then do set rest; pure true
      else throw .badCharacter
  let hours ← pair 9
  modify (List.dropWhile (fun c => c = ':' || Text.isWhiteSpace c))
  let minutes ← pair 5
  let ahead : Int := hours * 60 + minutes
  pure (if negative then -ahead else ahead)

/-- Minutes ahead of Universal Time: `Z`, `UTC` or an offset. -/
def zone : Scan Int := do
  match (← get) with
  | a :: b :: c :: rest =>
    if a.toUpper = 'U' ∧ b.toUpper = 'T' ∧ c.toUpper = 'C' then do set rest; pure 0
    else if a = 'Z' ∨ a = 'z' then do set (b :: c :: rest); pure 0
    else offset
  | a :: rest => if a = 'Z' ∨ a = 'z' then do set rest; pure 0 else offset
  | [] => offset

end Scan

structure Stamp where
  year : Int
  month : Nat
  day : Nat
  hour : Nat
  minute : Nat
  second : Nat
  nano : Nat
  ahead : Int

open Scan in
def Stamp.scan : Scan Stamp := do
  let year ← Scan.year
  blank
  literal '-'
  let month ← field 1 12
  blank
  literal '-'
  let day ← field 1 31
  separator
  let hour ← field 0 23
  blank
  literal ':'
  let minute ← field 0 59
  blank
  literal ':'
  let second ← field 0 60
  let nano ← fraction
  blank
  let ahead ← zone
  pure ⟨year, month, day, hour, minute, second, nano, ahead⟩

def Stamp.toInstant (s : Stamp) : Except InstantFlaw Instant :=
  match Calendar.Day.of? s.year s.month s.day with
  | none => .error .outOfRange
  | some date =>
    if s.ahead.natAbs < 1440 then
      match ofLocal? date (60 * s.hour + s.minute) s.second s.nano s.ahead with
      | some t => .ok t
      | none => .error .noSuchTime
    else .error .outOfRange

def ofText (s : String) : Except InstantFlaw Instant :=
  match Stamp.scan s.toList with
  | .error flaw => .error flaw
  | .ok (stamp, rest) => if (Text.trimStart rest).isEmpty then stamp.toInstant else .error .surplus

end Instant

end Allegiance
