import Allegiance.Json.Number
import Allegiance.Json.Text

namespace Allegiance.Json

open Document (Break Flaw Node)

/-- A piece of a JSON text. Scalars carry their value, or the flaw in it. -/
inductive Token
  | openList
  | closeList
  | openMap
  | closeMap
  | comma
  | colon
  | scalar (n : Node)
  | stray

def isBlank (b : UInt8) : Bool := b = 32 || b = 9 || b = 10 || b = 13

/-- A word that is broken off has no rest. -/
def word (n : Node) : List UInt8 → Bytes → Node × Bytes
  | [], rest => (n, rest)
  | _ :: _, [] => (.flaw (.word .truncated), [])
  | w :: ws, b :: rest => if b = w then word n ws rest else (.flaw (.word .malformed), [])

def text (b : Bytes) : Node × Bytes :=
  match skipText b with
  | .ok rest =>
    match readText b with
    | .ok s => (.text s, rest)
    | .error e => (.flaw (.text e none), rest)
  | .error p =>
    match readText b with
    | .ok _ => (.flaw (.text p p), [])
    | .error e => (.flaw (.text e p), [])

namespace Token

/-- What cannot start a token has no rest. -/
def scan (b : UInt8) (rest : Bytes) : Token × Bytes :=
  if b = byte '[' then (.openList, rest)
  else if b = byte ']' then (.closeList, rest)
  else if b = byte '\x7b' then (.openMap, rest)
  else if b = byte '\x7d' then (.closeMap, rest)
  else if b = byte ',' then (.comma, rest)
  else if b = byte ':' then (.colon, rest)
  else if b = byte '"' then (text rest).map .scalar id
  else if b = byte 'n' then (word .null (bytes ['u', 'l', 'l']) rest).map .scalar id
  else if b = byte 't' then (word (.bool true) (bytes ['r', 'u', 'e']) rest).map .scalar id
  else if b = byte 'f' then (word (.bool false) (bytes ['a', 'l', 's', 'e']) rest).map .scalar id
  else if b = byte '-' then (number true rest).map .scalar id
  else if isDigit b then (number false (b :: rest)).map .scalar id
  else (.stray, [])

end Token

theorem length_word (n : Node) (w b : Bytes) : (word n w b).2.length ≤ b.length := by
  fun_induction word n w b
  all_goals simp_all
  omega

theorem length_text (b : Bytes) : (text b).2.length ≤ b.length := by
  unfold text
  split
  · rename_i rest h
    have := length_skipText h
    split <;> simp <;> omega
  · split <;> simp

theorem length_ite {α : Type} {c : Prop} [Decidable c] {x y : α × Bytes} {n : Nat}
    (hx : x.2.length < n) (hy : y.2.length < n) : (if c then x else y).2.length < n := by
  split <;> assumption

theorem Token.length_scan (b : UInt8) (rest : Bytes) :
    (scan b rest).2.length < rest.length + 1 := by
  have hw := fun n w => Nat.lt_succ_of_le (length_word n w rest)
  have hminus := length_number true rest
  have hdigit := length_number false (b :: rest)
  have htext := Nat.lt_succ_of_le (length_text rest)
  simp only [List.length_cons] at hdigit
  unfold scan
  repeat' apply length_ite
  any_goals exact Nat.lt_succ_self _
  · exact htext
  · exact hw ..
  · exact hw ..
  · exact hw ..
  · exact Nat.lt_succ_of_le (Nat.le_trans hminus (Nat.sub_le ..))
  · exact Nat.lt_succ_of_le hdigit
  · exact Nat.succ_pos _

namespace Token

def next? (b : Bytes) : Option (Token × Bytes) :=
  match b.dropWhile isBlank with
  | [] => none
  | c :: rest => some (scan c rest)

theorem length_next? {b : Bytes} {r : Token × Bytes} (h : next? b = some r) :
    r.2.length < b.length := by
  unfold next? at h
  have := (List.dropWhile_sublist isBlank (l := b)).length_le
  split at h
  · cases h
  · rename_i c rest hb
    cases h
    rw [hb] at this
    exact Nat.lt_of_lt_of_le (length_scan c rest) this

/-- The tokens of a text after those already seen, which are last first. -/
def collect (seen : List Token) (b : Bytes) : List Token :=
  match h : next? b with
  | none => seen.reverse
  | some (t, rest) =>
    have : rest.length < b.length := length_next? h
    collect (t :: seen) rest
termination_by b.length

def ofBytes (b : Bytes) : List Token := collect [] b

end Token

end Allegiance.Json
