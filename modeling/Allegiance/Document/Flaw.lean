namespace Allegiance.Document

inductive Break
  | malformed
  | truncated
  deriving DecidableEq

/-- What breaks a value that is wanted may do no harm in one that is passed over, so for a text both
are told. -/
inductive Flaw
  | missing
  | stray
  | word (b : Break)
  | number (b : Break)
  | range
  | text (wanted : Break) (passed : Option Break)
  deriving DecidableEq

namespace Flaw

def wanted : Flaw → Break
  | missing => .truncated
  | stray | range => .malformed
  | word b | number b => b
  | text b _ => b

/-- The break met by whoever only passes over the value, if any. -/
def passed : Flaw → Option Break
  | missing => some .truncated
  | stray | number _ => some .malformed
  | word b => some b
  | range => none
  | text _ b => b

def asName : Flaw → Break
  | missing => .truncated
  | text b _ => b
  | _ => .malformed

def asNamePassed : Flaw → Option Break
  | missing => some .truncated
  | text _ b => b
  | _ => some .malformed

end Flaw

end Allegiance.Document
