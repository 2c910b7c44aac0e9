import Allegiance.Binary64.Rounding

namespace Allegiance.Binary64

/-- Where a value exactly between two shortest decimals goes. -/
inductive Tie
  | even
  | up
  deriving DecidableEq

structure Decimal where
  digits : Nat
  exponent : Int
  deriving DecidableEq

namespace Decimal

def value (d : Decimal) : Rat := d.digits * (10 : Rat) ^ d.exponent

/-- Move zeros at the end of the digits into the exponent. -/
def trim : Nat → Decimal → Decimal
  | 0, d => d
  | fuel + 1, d =>
    if d.digits ≠ 0 ∧ d.digits % 10 = 0 then trim fuel ⟨d.digits / 10, d.exponent + 1⟩ else d

end Decimal

def decimalPoint (q : Rat) : Int :=
  if 1 ≤ q then ((Nat.toDigits 10 q.floor.toNat).length : Int)
  else
    0 - ((List.range 330).findIdx (fun j => 1 ≤ q * (10 : Rat) ^ (j + 1)) : Int)

/-- The nearer of two neighbours on a decimal grid, among those that read back as `x`. -/
def pick (tie : Tie) (x : Finite) (low high : Decimal) : Option Decimal :=
  let back (d : Decimal) : Bool := round false d.value = round false x.magnitude
  let toLow := x.magnitude - low.value
  let toHigh := high.value - x.magnitude
  match back low, back high with
  | false, false => none
  | true, false => some low
  | false, true => some high
  | true, true =>
    if toLow < toHigh then some low
    else if toHigh < toLow then some high
    else if tie = .even ∧ low.digits % 2 = 0 then some low else some high

/-- The decimal with the fewest digits that reads back as `x`, and of those the nearest. -/
def Finite.shortest (tie : Tie) (x : Finite) : Decimal :=
  let point := decimalPoint x.magnitude
  let on (width : Nat) : Option Decimal :=
    let e := point - width
    let low := (x.magnitude / (10 : Rat) ^ e).floor.toNat
    pick tie x ⟨low, e⟩ ⟨low + 1, e⟩
  -- Seventeen digits tell every double from its neighbours.
  let found := ((List.range' 1 17).findSome? on).getD ⟨x.significand, 0⟩
  found.trim 400

/-- The exponents of a first digit for which the point is put in place, and what a whole number ends
in there. -/
structure Style where
  positional : Int → Bool
  whole : String
  tie : Tie

def Style.plain : Style := ⟨fun _ => true, "", .up⟩

def Style.pointed : Style := ⟨fun _ => true, ".0", .up⟩

/-- In place from 0.00001 up to sixteen digits, otherwise with a signed exponent. -/
def Style.scientific : Style := ⟨fun e => -5 ≤ e && e < 16, ".0", .even⟩

def inPlace (whole : String) (ds : List Char) (point : Int) : List Char :=
  if point ≤ 0 then '0' :: '.' :: List.replicate (-point).toNat '0' ++ ds
  else if (ds.length : Int) ≤ point then
    ds ++ List.replicate (point.toNat - ds.length) '0' ++ whole.toList
  else ds.take point.toNat ++ '.' :: ds.drop point.toNat

def withExponent (ds : List Char) (e : Int) : List Char :=
  let head := match ds with
    | [] => []
    | [d] => [d]
    | d :: rest => d :: '.' :: rest
  head ++ 'e' :: (if e < 0 then '-' else '+') :: Nat.toDigits 10 e.natAbs

def Style.write (style : Style) (x : Finite) : String :=
  let body :=
    if x.significand = 0 then '0' :: style.whole.toList
    else
      let d := x.shortest style.tie
      let ds := Nat.toDigits 10 d.digits
      let point := d.exponent + ds.length
      if style.positional (point - 1) then inPlace style.whole ds point
      else withExponent ds (point - 1)
  String.ofList (if x.negative then '-' :: body else body)

def toText (style : Style) : Binary64 → String
  | nan => "NaN"
  | infinite negative => if negative then "-inf" else "inf"
  | finite x => style.write x

end Allegiance.Binary64
