import Allegiance.Binary64.Rounding

namespace Allegiance.Binary64

def digitsValue (ds : List Char) : Nat := ds.foldl (fun n c => 10 * n + (c.toNat - '0'.toNat)) 0

/-- The double nearest to ±`digits` · 10^`exponent`. A power that puts any number of so many digits
beyond the doubles, or below half the least of them, is not computed. -/
def ofDecimal (negative : Bool) (digits : Nat) (exponent : Int) : Binary64 :=
  let width : Int := (Nat.toDigits 10 digits).length
  if digits = 0 then zero negative
  else if 310 < exponent + width then .infinite negative
  else if exponent + width < -330 then zero negative
  else round negative (digits * (10 : Rat) ^ exponent)

def isDigits (ds : List Char) : Bool := !ds.isEmpty && ds.all Char.isDigit

structure Numeral where
  whole : List Char
  fraction : List Char
  exponent : Int

namespace Numeral

def value (negative : Bool) (n : Numeral) : Binary64 :=
  ofDecimal negative (digitsValue (n.whole ++ n.fraction)) (n.exponent - n.fraction.length)

def exponent? : List Char → Option Int
  | '+' :: ds => if isDigits ds then some (digitsValue ds : Nat) else none
  | '-' :: ds => if isDigits ds then some (-(digitsValue ds : Nat)) else none
  | ds => if isDigits ds then some (digitsValue ds : Nat) else none

/-- Digits with an optional point, of which at least one digit is there, and an optional exponent. -/
def ofChars? (cs : List Char) : Option Numeral :=
  let whole := cs.takeWhile Char.isDigit
  let rest := cs.dropWhile Char.isDigit
  let (fraction, rest) := match rest with
    | '.' :: r => (r.takeWhile Char.isDigit, r.dropWhile Char.isDigit)
    | r => ([], r)
  if whole.isEmpty && fraction.isEmpty then none
  else match rest with
    | [] => some ⟨whole, fraction, 0⟩
    | c :: r => if c = 'e' ∨ c = 'E' then (exponent? r).map (⟨whole, fraction, ·⟩) else none

end Numeral

def ofUnsigned? (negative : Bool) (cs : List Char) : Option Binary64 :=
  let word := String.ofList (cs.map Char.toLower)
  if word = "inf" ∨ word = "infinity" then some (.infinite negative)
  else if word = "nan" then some .nan
  else (Numeral.ofChars? cs).map (·.value negative)

/-- A sign if any, then a decimal numeral, `inf`, `infinity` or `nan` in any case. -/
def ofChars? : List Char → Option Binary64
  | '-' :: cs => ofUnsigned? true cs
  | '+' :: cs => ofUnsigned? false cs
  | cs => ofUnsigned? false cs

def ofString? (s : String) : Option Binary64 := ofChars? s.toList

end Allegiance.Binary64
