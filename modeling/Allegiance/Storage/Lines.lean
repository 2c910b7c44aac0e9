import Allegiance.Json.Document
import Allegiance.Json.Value

namespace Allegiance.Lines

open Document (Reader)

def lineFeed : UInt8 := 10

/-- The lines of a content. After the last line feed there is a line only if something is there. -/
def split (content : Bytes) : List Bytes :=
  match pieces content with
  | [] => []
  | ps => if ps.getLast? = some [] then ps.dropLast else ps
where
  pieces : Bytes → List Bytes
    | [] => [[]]
    | b :: rest =>
      if b = lineFeed then [] :: pieces rest
      else
        match pieces rest with
        | [] => [[b]]
        | p :: ps => (b :: p) :: ps

/-- White space of ASCII; lines with nothing else do not count. -/
def isBlankByte (b : UInt8) : Bool := b = 32 || b = 9 || b = 10 || b = 12 || b = 13

structure Harvest (α : Type) where
  entities : List α
  failures : List Nat

namespace Harvest

def empty {α : Type} : Harvest α := ⟨[], []⟩

def append {α : Type} (a b : Harvest α) : Harvest α :=
  ⟨a.entities ++ b.entities, a.failures ++ b.failures⟩

end Harvest

def readLine {α : Type} (reader : Reader α) (number : Nat) (line : Bytes) : Harvest α :=
  if line.all isBlankByte then .empty
  else
    match Json.read reader line with
    | .ok x => ⟨[x], []⟩
    | .error _ => ⟨[], [number]⟩

/-- Read lines, the first of which has the given number. -/
def readFrom {α : Type} (reader : Reader α) (number : Nat) : List Bytes → Harvest α
  | [] => .empty
  | line :: rest => (readLine reader number line).append (readFrom reader (number + 1) rest)

def read {α : Type} (reader : Reader α) (content : Bytes) : Harvest α :=
  readFrom reader 1 (split content)

def write (values : List Json.Value) : Bytes :=
  values.flatMap (fun v => v.compact ++ [lineFeed])

end Allegiance.Lines
