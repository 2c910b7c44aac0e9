import Allegiance.Binary64.Shortest
import Allegiance.Json.Text

namespace Allegiance.Json

/-- A value to write. -/
inductive Value
  | integer (i : Int)
  | real (x : Binary64)
  | text (s : String)
  | list (items : List Value)
  | object (members : List (String × Value))

namespace Value

def ofUInt32 (n : UInt32) : Value := integer n.toNat

/-- Members, of which some may be left out. -/
def record (members : List (String × Option Value)) : Value :=
  object (members.filterMap (fun m => m.2.map (m.1, ·)))

def integerText (i : Int) : List Char :=
  if i < 0 then '-' :: Nat.toDigits 10 i.natAbs else Nat.toDigits 10 i.toNat

/-- Infinities and not-a-number are null. -/
def realText (x : Binary64) : List Char :=
  if x.isFinite then (x.toText .scientific).toList else ['n', 'u', 'l', 'l']

mutual

def compact : Value → Bytes
  | integer i => bytes (integerText i)
  | real x => bytes (realText x)
  | text s => writeText s
  | list items => byte '[' :: (compactItems items ++ [byte ']'])
  | object members => byte '\x7b' :: (compactMembers members ++ [byte '\x7d'])

def compactItems : List Value → Bytes
  | [] => []
  | [item] => item.compact
  | item :: rest => item.compact ++ byte ',' :: compactItems rest

def compactMembers : List (String × Value) → Bytes
  | [] => []
  | [(name, value)] => writeText name ++ byte ':' :: value.compact
  | (name, value) :: rest =>
    writeText name ++ byte ':' :: (value.compact ++ byte ',' :: compactMembers rest)

end

def newLine (level : Nat) : Bytes := byte '\n' :: List.replicate (2 * level) (byte ' ')

mutual

def pretty (level : Nat) : Value → Bytes
  | integer i => bytes (integerText i)
  | real x => bytes (realText x)
  | text s => writeText s
  | list [] => bytes ['[', ']']
  | list (item :: rest) =>
    byte '[' :: (newLine (level + 1) ++ item.pretty (level + 1) ++ prettyItems level rest ++
      newLine level ++ [byte ']'])
  | object [] => bytes ['\x7b', '\x7d']
  | object ((name, value) :: rest) =>
    byte '\x7b' :: (newLine (level + 1) ++ writeText name ++ bytes [':', ' '] ++
      value.pretty (level + 1) ++ prettyMembers level rest ++ newLine level ++ [byte '\x7d'])

def prettyItems (level : Nat) : List Value → Bytes
  | [] => []
  | item :: rest =>
    byte ',' :: (newLine (level + 1) ++ item.pretty (level + 1) ++ prettyItems level rest)

def prettyMembers (level : Nat) : List (String × Value) → Bytes
  | [] => []
  | (name, value) :: rest =>
    byte ',' :: (newLine (level + 1) ++ writeText name ++ bytes [':', ' '] ++
      value.pretty (level + 1) ++ prettyMembers level rest)

end

end Value

end Allegiance.Json
