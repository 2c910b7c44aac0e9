import Allegiance.Binary64.Basic

namespace Allegiance.Binary64

/-- The nearest integer; a half goes to the even neighbour. -/
def nearestEven (q : Rat) : Int :=
  let below := q.floor
  let excess := q - below
  if excess < 1 / 2 then below
  else if 1 / 2 < excess then below + 1
  else if below % 2 = 0 then below else below + 1

def binaryExponent (q : Rat) : Int :=
  let guess : Int := (q.num.natAbs.log2 : Int) - q.den.log2
  if (2 : Rat) ^ guess ≤ q then guess else guess - 1

/-- The exponent of the last of the 53 digits that `q` has room for. -/
def lastExponent (q : Rat) : Int := max (binaryExponent q - 52) (-1074)

def ofParts (negative : Bool) (significand : Nat) (exponent : Int) : Binary64 :=
  if h : IsNormal significand exponent then .finite ⟨negative, significand, exponent, h⟩
  else .infinite negative

/-- The double nearest to ±`q`, for `q` not negative; a half goes to the even significand. -/
def round (negative : Bool) (q : Rat) : Binary64 :=
  if q = 0 then zero negative
  else
    let e := lastExponent q
    let m := (nearestEven (q / 2 ^ e)).toNat
    if m = significandEnd then ofParts negative fullSignificand (e + 1) else ofParts negative m e

def ofNat (n : Nat) : Binary64 := round false n

def ofInt (i : Int) : Binary64 := round (i < 0) i.natAbs

instance (n : Nat) : OfNat Binary64 n := ⟨ofNat n⟩

end Allegiance.Binary64
