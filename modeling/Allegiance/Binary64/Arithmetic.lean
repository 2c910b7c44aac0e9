import Allegiance.Binary64.Rounding

namespace Allegiance.Binary64

def mul : Binary64 → Binary64 → Binary64
  | nan, _ | _, nan => nan
  | infinite s, infinite t => infinite (s != t)
  | infinite s, finite x | finite x, infinite s =>
    if x.significand = 0 then nan else infinite (s != x.negative)
  | finite x, finite y => round (x.negative != y.negative) (x.magnitude * y.magnitude)

def div : Binary64 → Binary64 → Binary64
  | nan, _ | _, nan => nan
  | infinite _, infinite _ => nan
  | infinite s, finite x => infinite (s != x.negative)
  | finite x, infinite s => zero (s != x.negative)
  | finite x, finite y =>
    if y.significand = 0 then
      if x.significand = 0 then nan else infinite (x.negative != y.negative)
    else round (x.negative != y.negative) (x.magnitude / y.magnitude)

instance : Mul Binary64 := ⟨mul⟩
instance : Div Binary64 := ⟨div⟩
instance : Neg Binary64 := ⟨neg⟩

end Allegiance.Binary64
