namespace Allegiance.Hex

def value? (b : UInt8) : Option Nat :=
  if 48 ≤ b ∧ b ≤ 57 then some (b.toNat - 48)
  else if 97 ≤ b ∧ b ≤ 102 then some (b.toNat - 87)
  else if 65 ≤ b ∧ b ≤ 70 then some (b.toNat - 55)
  else none

/-- The digit of a value below sixteen, in lower case. -/
def digit (n : UInt8) : UInt8 := if n < 10 then 48 + n else 87 + n

def upperDigit (n : UInt8) : UInt8 := if n < 10 then 48 + n else 55 + n

end Allegiance.Hex
