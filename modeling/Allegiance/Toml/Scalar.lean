import Allegiance.Binary64.Decimal
import Allegiance.Document.Node
import Allegiance.Instant.Calendar
import Allegiance.Toml.Text

namespace Allegiance.Toml

open Document (Node)

def char (c : Char) : Scan Unit := fun cs =>
  match cs with
  | d :: rest => if d = c then some ((), rest) else none
  | [] => none

def satisfying (p : Char → Bool) : Scan Char := fun cs =>
  match cs with
  | d :: rest => if p d then some (d, rest) else none
  | [] => none

def word (w : String) : Scan Unit := w.toList.forM char

def optionally {α : Type} (scan : Scan α) : Scan (Option α) := fun cs =>
  match scan cs with
  | some (x, rest) => some (some x, rest)
  | none => some (none, cs)

/-- Digits, each but the first perhaps after an underscore, which is left out. -/
def grouped (isDigit : Char → Bool) : Scan (List Char) := do
  let first ← satisfying isDigit
  fun cs => let (ds, rest) := more cs; some (first :: ds, rest)
where
  more : List Char → List Char × List Char
    | '_' :: d :: rest =>
      if isDigit d then
        let (ds, rest) := more rest
        (d :: ds, rest)
      else ([], '_' :: d :: rest)
    | d :: rest =>
      if isDigit d then
        let (ds, rest) := more rest
        (d :: ds, rest)
      else ([], d :: rest)
    | [] => ([], [])

def sign : Scan (Option Bool) :=
  optionally do pure ((← satisfying (fun c => c = '-' || c = '+')) == '-')

/-- Decimal digits; a zero in front stands alone. -/
def wholeDigits : Scan (List Char) := fun cs =>
  match cs with
  | '0' :: rest => some (['0'], rest)
  | _ => grouped Char.isDigit cs

def exponent : Scan Int := do
  let _ ← satisfying (fun c => c = 'e' || c = 'E')
  let negative ← sign
  let n : Int := Binary64.digitsValue (← grouped Char.isDigit)
  pure (if negative = some true then -n else n)

/-- A number with a fraction, an exponent or both. It may be too small for a double but not too
large, unless it is negative. -/
def float : Scan Node := do
  let negative := (← sign) = some true
  let whole ← wholeDigits
  let fraction ← optionally (do char '.'; grouped Char.isDigit)
  let power ← optionally exponent
  if fraction.isNone ∧ power.isNone then failure
  let x := (Binary64.Numeral.mk whole (fraction.getD []) (power.getD 0)).value negative
  if x = .infinite false then failure
  pure (.real x)

def infinity : Scan Node := do
  let negative := (← sign) = some true
  word "inf"
  pure (.real (.infinite negative))

def notANumber : Scan Node := do
  let _ ← sign
  word "nan"
  pure (.real .nan)

/-- A whole number of 64 bits. -/
def whole (negative : Bool) (n : Nat) : Scan Node :=
  let i : Int := if negative then -n else n
  if -9223372036854775808 ≤ i ∧ i < 9223372036854775808 then pure (.integer i) else failure

def inBase (base : Nat) (letter : Char) (isDigit : Char → Bool) : Scan Node := do
  char '0'
  char letter
  let ds ← grouped isDigit
  whole false (ds.foldl (fun n d => base * n + hexValue d) 0)

def decimal : Scan Node := do
  let negative := (← sign) = some true
  whole negative (Binary64.digitsValue (← wholeDigits))

def integer : Scan Node :=
  inBase 16 'x' isHex <|> inBase 8 'o' (fun c => '0' ≤ c && c ≤ '7') <|>
    inBase 2 'b' (fun c => c = '0' || c = '1') <|> decimal

/-- A number of exactly `width` digits between two bounds. -/
def fixedWidth (width low high : Nat) : Scan Nat := do
  let ds ← (List.replicate width ()).mapM (fun _ => satisfying Char.isDigit)
  let n := Binary64.digitsValue ds
  if low ≤ n ∧ n ≤ high then pure n else failure

def date : Scan Unit := do
  let year ← fixedWidth 4 0 9999
  char '-'
  let month ← fixedWidth 2 1 12
  char '-'
  let day ← fixedWidth 2 1 31
  if day ≤ Calendar.daysIn year month then pure () else failure

def time : Scan Unit := do
  let _ ← fixedWidth 2 0 23
  char ':'
  let _ ← fixedWidth 2 0 59
  char ':'
  let _ ← fixedWidth 2 0 60
  let _ ← optionally do
    char '.'
    let _ ← satisfying Char.isDigit
    modify (List.dropWhile Char.isDigit)

def offset : Scan Unit := do
  let c ← satisfying (fun c => c = 'Z' || c = 'z' || c = '+' || c = '-')
  if c = '+' ∨ c = '-' then do
    let _ ← fixedWidth 2 0 23
    char ':'
    let _ ← fixedWidth 2 0 59

/-- A date, a time, or a date and a time with or without an offset. -/
def moment : Scan Node := do
  (do date
      let _ ← optionally do
        let _ ← satisfying (fun c => c = 'T' || c = 't' || c = ' ')
        time
        optionally offset) <|> time
  pure .moment

def scalar : Scan Node := fun cs =>
  match cs with
  | [] => none
  | c :: _ =>
    if c = '"' ∨ c = '\'' then (Node.text <$> text) cs
    else if c = 't' then (do word "true"; pure (.bool true) : Scan Node) cs
    else if c = 'f' then (do word "false"; pure (.bool false) : Scan Node) cs
    else if c = 'i' then infinity cs
    else if c = 'n' then notANumber cs
    else (moment <|> float <|> infinity <|> notANumber <|> integer) cs

end Allegiance.Toml
