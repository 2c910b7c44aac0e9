import Allegiance.Text.Hex
import Allegiance.Text.Utf8

namespace Allegiance.Percent

/-- A percent sign without two digits after it stands for itself. -/
def decode : Bytes → Bytes
  | 37 :: a :: b :: rest =>
    match Hex.value? a, Hex.value? b with
    | some high, some low => (16 * high + low).toUInt8 :: decode rest
    | _, _ => 37 :: decode (a :: b :: rest)
  | c :: rest => c :: decode rest
  | [] => []

def isUnreserved (b : UInt8) : Bool :=
  (48 ≤ b && b ≤ 57) || (65 ≤ b && b ≤ 90) || (97 ≤ b && b ≤ 122) ||
    b = 45 || b = 46 || b = 95 || b = 126

def encodeByte (b : UInt8) : Bytes :=
  if isUnreserved b then [b] else [37, Hex.upperDigit (b / 16), Hex.upperDigit (b % 16)]

def encode (bs : Bytes) : Bytes := bs.flatMap encodeByte

end Allegiance.Percent
