namespace Allegiance

structure MediaType where
  type : List Char
  subtype : List Char
  suffix : Option (List Char)

namespace MediaType

def isToken (c : Char) : Bool :=
  c.isAlphanum || "!#$%&'*+-.^_`|~".toList.contains c

def isQuotable (c : Char) : Bool := ' ' ≤ c && c ≠ '\x7f'

/-- Blanks up to the next parameter, or nothing. -/
def afterQuote : List Char → Option (List Char)
  | [] => some []
  | c :: rest => if c = ';' then some rest else if c = ' ' then afterQuote rest else none

/-- What is left after the value of a parameter. A quoted value has at least one character. -/
def skipValue : List Char → Option (List Char)
  | '"' :: first :: rest =>
    if isQuotable first then
      match rest.dropWhile (fun c => isQuotable c && c ≠ '"') with
      | '"' :: rest => afterQuote rest
      | _ => none
    else none
  | cs =>
    match cs.dropWhile isToken with
    | [] => some []
    | ';' :: rest => if isToken (cs.headD ';') then some rest else none
    | _ => none

def skipParameter (cs : List Char) : Option (List Char) :=
  match cs.dropWhile isToken with
  | '=' :: rest => if (cs.takeWhile isToken).isEmpty then none else skipValue rest
  | _ => none

def areParameters : Nat → List Char → Bool
  | _, [] => true
  | 0, _ => false
  | fuel + 1, cs =>
    match cs.dropWhile (· = ' ') with
    | [] => true
    | cs => (skipParameter cs).any (areParameters fuel)

/-- The suffix is what follows the last plus sign. A plus sign in front does not part anything. -/
def splitSubtype (cs : List Char) : List Char × Option (List Char) :=
  let suffix := (cs.reverse.takeWhile (· ≠ '+')).reverse
  let before := cs.take (cs.length - suffix.length - 1)
  if before.isEmpty then (cs, none) else (before, some suffix)

def ofString? (s : String) : Option MediaType :=
  let cs := s.toList.map Char.toLower
  let type := cs.takeWhile isToken
  match cs.dropWhile isToken with
  | '/' :: rest =>
    if type.isEmpty then none
    else
      let (subtype, suffix) := splitSubtype (rest.takeWhile isToken)
      match rest.dropWhile isToken with
      | [] => some ⟨type, subtype, suffix⟩
      | ';' :: parameters =>
        if !(rest.takeWhile isToken).isEmpty ∧ areParameters parameters.length parameters then
          some ⟨type, subtype, suffix⟩
        else none
      | _ => none
  | _ => none

/-- JSON, plain or under a suffix. -/
def isJson (t : MediaType) : Bool :=
  t.type = "application".toList &&
    (t.subtype = "json".toList || t.suffix = some "json".toList)

end MediaType

end Allegiance
