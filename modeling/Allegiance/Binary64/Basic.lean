namespace Allegiance

namespace Binary64

abbrev significandEnd : Nat := 9007199254740992

abbrev fullSignificand : Nat := 4503599627370496

/-- The one way to write a double: at most 53 bits, all of them used unless the exponent is least. -/
def IsNormal (significand : Nat) (exponent : Int) : Prop :=
  significand < significandEnd ∧ -1074 ≤ exponent ∧ exponent ≤ 971 ∧
    (fullSignificand ≤ significand ∨ exponent = -1074)

instance (m : Nat) (e : Int) : Decidable (IsNormal m e) :=
  inferInstanceAs (Decidable (_ ∧ _ ∧ _ ∧ _))

/-- A finite double, ±significand · 2^exponent. -/
structure Finite where
  negative : Bool
  significand : Nat
  exponent : Int
  normal : IsNormal significand exponent
  deriving DecidableEq

def Finite.magnitude (x : Finite) : Rat := x.significand * 2 ^ x.exponent

def Finite.value (x : Finite) : Rat := if x.negative then -x.magnitude else x.magnitude

end Binary64

/-- A double: 53 binary digits, signed zeros, infinities and one not-a-number. -/
inductive Binary64
  | nan
  | infinite (negative : Bool)
  | finite (x : Binary64.Finite)
  deriving DecidableEq

namespace Binary64

def zero (negative : Bool) : Binary64 := .finite ⟨negative, 0, -1074, by decide⟩

instance : Inhabited Binary64 := ⟨zero false⟩

def isFinite : Binary64 → Bool
  | finite _ => true
  | _ => false

/-- The order of the numbers; not-a-number is on neither side of anything. -/
def le : Binary64 → Binary64 → Bool
  | nan, _ | _, nan => false
  | infinite true, _ | _, infinite false => true
  | infinite false, _ | _, infinite true => false
  | finite x, finite y => x.value ≤ y.value

def lt (x y : Binary64) : Bool := le x y && !le y x

def neg : Binary64 → Binary64
  | nan => nan
  | infinite s => infinite !s
  | finite x => finite { x with negative := !x.negative }

end Binary64

end Allegiance
