import Allegiance.Text.Unprintable

namespace Allegiance.Text

/-- The double quote is escaped everywhere, the single one where file names are shown. -/
inductive Quoting
  | text
  | path
  deriving DecidableEq

def spelledOut (c : Char) : List Char :=
  ['\\', 'u', '\x7b'] ++ Nat.toDigits 16 c.toNat ++ ['\x7d']

def quotedChar (q : Quoting) (c : Char) : List Char :=
  if c = '\x00' then ['\\', '0']
  else if c = '\t' then ['\\', 't']
  else if c = '\n' then ['\\', 'n']
  else if c = '\r' then ['\\', 'r']
  else if c = '\\' ∨ c = '"' then ['\\', c]
  else if c = '\'' ∧ q = .path then ['\\', c]
  else if isPrintable c then [c]
  else spelledOut c

def quoted (q : Quoting) (s : String) : String :=
  String.ofList ('"' :: s.toList.flatMap (quotedChar q) ++ ['"'])

end Allegiance.Text
