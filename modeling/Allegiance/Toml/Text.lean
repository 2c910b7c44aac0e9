namespace Allegiance.Toml

abbrev Scan := StateT (List Char) Option

def isBlank (c : Char) : Bool := c = ' ' || c = '\t'

/-- Whether a character may stand in a comment, or between quotes that are not its own. -/
def isPlain (c : Char) : Bool := c = '\t' || (' ' ≤ c && c ≠ '\x7f')

def isHex (c : Char) : Bool :=
  c.isDigit || ('a' ≤ c && c ≤ 'f') || ('A' ≤ c && c ≤ 'F')

def hexValue (c : Char) : Nat :=
  if c.isDigit then c.toNat - 48 else if 'a' ≤ c then c.toNat - 87 else c.toNat - 55

def hexChar? (ds : List Char) : Option Char :=
  let n := ds.foldl (fun n d => 16 * n + hexValue d) 0
  if ds.all isHex ∧ n.isValidChar then some (Char.ofNat n) else none

def escapes : List (Char × Char) :=
  [('b', '\x08'), ('f', '\x0c'), ('n', '\n'), ('r', '\r'), ('t', '\t'), ('\\', '\\'), ('"', '"')]

/-- Whether a text goes on in a new line. -/
def startsLine : List Char → Bool
  | '\n' :: _ => true
  | '\r' :: '\n' :: _ => true
  | _ => false

/-- The content of a text up to its double quote, after what is seen, last first. -/
def basicLine (seen : List Char) : List Char → Option (String × List Char)
  | [] => none
  | '"' :: rest => some (String.ofList seen.reverse, rest)
  | '\\' :: 'u' :: a :: b :: c :: d :: rest => do
    basicLine ((← hexChar? [a, b, c, d]) :: seen) rest
  | '\\' :: 'U' :: a :: b :: c :: d :: e :: f :: g :: h :: rest => do
    basicLine ((← hexChar? [a, b, c, d, e, f, g, h]) :: seen) rest
  | '\\' :: e :: rest => do basicLine ((← escapes.lookup e) :: seen) rest
  | c :: rest => if isPlain c ∧ c ≠ '\\' then basicLine (c :: seen) rest else none

/-- The content of a text up to its three quotes, of which two more may be content. After a backslash
at the end of a line all blanks and line ends are skipped. -/
def basicLines (skipping : Bool) (seen : List Char) : List Char → Option (String × List Char)
  | [] => none
  | '"' :: '"' :: '"' :: '"' :: '"' :: rest =>
    some (String.ofList (('"' :: '"' :: seen).reverse), rest)
  | '"' :: '"' :: '"' :: '"' :: rest => some (String.ofList (('"' :: seen).reverse), rest)
  | '"' :: '"' :: '"' :: rest => some (String.ofList seen.reverse, rest)
  | '\\' :: 'u' :: a :: b :: c :: d :: rest => do
    basicLines false ((← hexChar? [a, b, c, d]) :: seen) rest
  | '\\' :: 'U' :: a :: b :: c :: d :: e :: f :: g :: h :: rest => do
    basicLines false ((← hexChar? [a, b, c, d, e, f, g, h]) :: seen) rest
  | '\\' :: rest =>
    if startsLine (rest.dropWhile isBlank) then basicLines true seen rest
    else
      match rest with
      | e :: rest => do basicLines false ((← escapes.lookup e) :: seen) rest
      | [] => none
  | '\r' :: '\n' :: rest =>
    if skipping then basicLines true seen rest else basicLines false ('\n' :: seen) rest
  | c :: rest =>
    if skipping ∧ (isBlank c ∨ c = '\n') then basicLines true seen rest
    else if isPlain c ∨ c = '\n' then basicLines false (c :: seen) rest
    else none

def literalLine (seen : List Char) : List Char → Option (String × List Char)
  | [] => none
  | '\'' :: rest => some (String.ofList seen.reverse, rest)
  | c :: rest => if isPlain c then literalLine (c :: seen) rest else none

def literalLines (seen : List Char) : List Char → Option (String × List Char)
  | [] => none
  | '\'' :: '\'' :: '\'' :: '\'' :: '\'' :: rest =>
    some (String.ofList (('\'' :: '\'' :: seen).reverse), rest)
  | '\'' :: '\'' :: '\'' :: '\'' :: rest => some (String.ofList (('\'' :: seen).reverse), rest)
  | '\'' :: '\'' :: '\'' :: rest => some (String.ofList seen.reverse, rest)
  | '\r' :: '\n' :: rest => literalLines ('\n' :: seen) rest
  | c :: rest => if isPlain c ∨ c = '\n' then literalLines (c :: seen) rest else none

/-- A line end right after the opening quotes is not content. -/
def dropLineEnd : List Char → List Char
  | '\n' :: rest => rest
  | '\r' :: '\n' :: rest => rest
  | cs => cs

def lineText : Scan String := fun cs =>
  match cs with
  | '"' :: rest => basicLine [] rest
  | '\'' :: rest => literalLine [] rest
  | _ => none

def text : Scan String := fun cs =>
  match cs with
  | '"' :: '"' :: '"' :: rest => basicLines false [] (dropLineEnd rest)
  | '\'' :: '\'' :: '\'' :: rest => literalLines [] (dropLineEnd rest)
  | _ => lineText cs

end Allegiance.Toml
