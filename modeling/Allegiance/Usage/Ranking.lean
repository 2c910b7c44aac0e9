import Allegiance.Usage.Basic

namespace Allegiance.Usage

/-- Equal counts stay in the order of entry. -/
def byCountDesc (u : Usage) : List (String × UInt32) :=
  u.toList.mergeSort (fun a b => b.2 ≤ a.2)

end Allegiance.Usage
