import Allegiance.Document.Reading
import Allegiance.Toml.Scalar
import Allegiance.Toml.Table

namespace Allegiance.Toml

open Document (Node Reader Misread)

def blanks : Scan Unit := modify (List.dropWhile isBlank)

/-- A comment is skipped only with the end of its line. -/
def skipTrivia (inComment : Bool) : List Char → Option (List Char)
  | [] => if inComment then none else some []
  | '\r' :: '\n' :: rest => skipTrivia false rest
  | '\n' :: rest => skipTrivia false rest
  | c :: rest =>
    if inComment then if isPlain c then skipTrivia true rest else none
    else if isBlank c then skipTrivia false rest
    else if c = '#' then skipTrivia true rest
    else some (c :: rest)

def trivia : Scan Unit := fun cs => (skipTrivia false cs).map ((), ·)

def isBare (c : Char) : Bool := c.isAlphanum || c = '_' || c = '-'

def bareKey : Scan String := fun cs =>
  let ds := cs.takeWhile isBare
  if ds.isEmpty then none else some (String.ofList ds, cs.drop ds.length)

def simpleKey : Scan String := do
  blanks
  let k ← lineText <|> bareKey
  blanks
  pure k

/-- Fewer keys than this make a dotted key, and arrays and tables are nested less deep. -/
def depthLimit : Nat := 80

/-- Keys with points between them: the last one and those before it. -/
def dottedKey : Scan (List String × String) := do
  let first ← simpleKey
  let keys ← fun cs => more cs.length [first] cs
  if keys.length < depthLimit then pure (keys.tail.reverse, keys.headD "") else failure
where
  /-- Take up to `fuel` more keys; they are last first. -/
  more : Nat → List String → Scan (List String)
    | 0, seen => pure seen
    | fuel + 1, seen => do
      match (← get) with
      | '.' :: rest =>
        set rest
        more fuel ((← simpleKey) :: seen)
      | _ => pure seen

/-- The rest of an array after its bracket; `fuel` bounds its items. -/
def arrayItems (item : Scan Node) : Nat → List Node → Scan (List Node)
  | 0, _ => failure
  | fuel + 1, seen => do
    trivia
    match (← get) with
    | ']' :: rest => do set rest; pure seen.reverse
    | _ =>
      let x ← item
      trivia
      match (← satisfying (fun c => c = ',' || c = ']')) with
      | ']' => pure (x :: seen).reverse
      | _ => arrayItems item fuel (x :: seen)

/-- The rest of a table in braces after its brace or a comma; `fuel` bounds its pairs. -/
def inlinePairs (item : Scan Node) : Nat → Entries → Scan Entries
  | 0, _ => failure
  | fuel + 1, es => do
    let (path, key) ← dottedKey
    char '='
    blanks
    let x ← item
    blanks
    let es ← (es.addPair path key x : Option Entries)
    match (← satisfying (fun c => c = ',' || c = '\x7d')) with
    | ',' => inlinePairs item fuel es
    | _ => pure es

/-- A value with at most `room` levels of arrays and tables in it. -/
def value : Nat → Scan Node
  | 0 => scalar
  | room + 1 => fun cs =>
    match cs with
    | '[' :: rest => do
      let (items, rest) ← arrayItems (value room) rest.length [] rest
      some (.list items none, rest)
    | '\x7b' :: rest =>
      match rest.dropWhile isBlank with
      | '\x7d' :: rest => some (.map [] none, rest)
      | _ => do
        let (es, rest) ← inlinePairs (value room) rest.length [] rest
        some (.map (nodesOf es) none, rest)
    | _ => scalar cs

def lineEnd : Scan Unit := fun cs =>
  match cs.dropWhile isBlank with
  | '#' :: rest => ending (rest.dropWhile isPlain)
  | rest => ending rest
where
  ending : List Char → Option (Unit × List Char)
    | [] => some ((), [])
    | '\n' :: rest => some ((), rest)
    | '\r' :: '\n' :: rest => some ((), rest)
    | _ => none

def statement : Scan Statement := fun cs =>
  match cs with
  | '[' :: '[' :: rest => run rest (do
      let (path, key) ← dottedKey
      char ']'
      char ']'
      pure (.arrayHeader path key))
  | '[' :: rest => run rest (do
      let (path, key) ← dottedKey
      char ']'
      pure (.header path key))
  | _ => run cs (do
      let (path, key) ← dottedKey
      char '='
      blanks
      pure (.pair path key (← value (depthLimit - 1))))
where
  run (cs : List Char) (scan : Scan Statement) : Option (Statement × List Char) :=
    (do let s ← scan; lineEnd; pure s : Scan Statement) cs

/-- The statements of a document after those seen, which are last first; `fuel` bounds its lines. -/
def statements : Nat → List Statement → List Char → Option (List Statement)
  | 0, _, _ => none
  | fuel + 1, seen, cs =>
    match cs.dropWhile isBlank with
    | [] => some seen.reverse
    | '#' :: rest => do
      let (_, rest) ← lineEnd ('#' :: rest)
      statements fuel seen rest
    | '\n' :: rest => statements fuel seen rest
    | '\r' :: '\n' :: rest => statements fuel seen rest
    | cs => do
      let (s, rest) ← statement cs
      statements fuel (s :: seen) rest

/-- The tree of a document. A byte order mark in front does not count. -/
def document (s : String) : Option Node :=
  let cs := s.toList
  let cs := if cs.head? = some '\ufeff' then cs.tail else cs
  (statements (cs.length + 1) [] cs).bind treeOf

def read {α : Type} (reader : Reader α) (s : String) : Except Misread α :=
  match document s with
  | none => .error (.broken .malformed)
  | some n => reader n

end Allegiance.Toml
