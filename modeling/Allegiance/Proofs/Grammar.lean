import Allegiance.Json.Document

namespace Allegiance.Json

open Document (Node)

def AreDigits (ds : Bytes) : Prop := ds ≠ [] ∧ ∀ d ∈ ds, isDigit d = true

def spelled (n : Nat) (ds : Bytes) : Nat := ds.foldl (fun n d => 10 * n + digitValue d) n

inductive SpellsSign : Bool → Bytes → Prop
  | absent : SpellsSign false []
  | plus : SpellsSign false [43]
  | minus : SpellsSign true [45]

inductive SpellsExponent : Option Int → Bytes → Prop
  | absent : SpellsExponent none []
  | present {e : UInt8} {negative : Bool} {sign ds : Bytes} (he : e = 101 ∨ e = 69)
      (hsign : SpellsSign negative sign) (hds : AreDigits ds) :
      SpellsExponent (some (if negative then -spelled 0 ds else spelled 0 ds)) (e :: (sign ++ ds))

def fractionBytes (fraction : Option Bytes) : Bytes := fraction.elim [] (46 :: ·)

/-- A number is spelled by a minus or nothing, digits that start with a zero only if it stands
alone, a fraction if there is one, and an exponent. -/
structure Literal.Spells (l : Literal) (b : Bytes) : Prop where
  whole : AreDigits l.whole
  zero : l.whole.head? = some 48 → l.whole = [48]
  fraction : ∀ ds ∈ l.fraction, AreDigits ds
  bytes : ∃ e, SpellsExponent l.exponent e ∧
    b = (if l.negative then [45] else []) ++ (l.whole ++ (fractionBytes l.fraction ++ e))

def IsPlain (b : UInt8) : Prop := b ≠ 34 ∧ b ≠ 92 ∧ 32 ≤ b

/-- The bytes of the character with a number. -/
def charBytes (code : Nat) : Bytes := Utf8.encode (String.singleton (Char.ofNat code))

/-- The character that two surrogates stand for. -/
def joined (high low : Nat) : Nat := 0x10000 + (high - 0xd800) * 0x400 + (low - 0xdc00)

/-- What a text stands for, and what stands between its quotes. Surrogates come in pairs. -/
inductive SpellsContent : Bytes → Bytes → Prop
  | nil : SpellsContent [] []
  | plain {b : UInt8} {content spelling : Bytes} (hb : IsPlain b)
      (hrest : SpellsContent content spelling) : SpellsContent (b :: content) (b :: spelling)
  | letter {e b : UInt8} {content spelling : Bytes} (he : (e, b) ∈ escapes)
      (hrest : SpellsContent content spelling) : SpellsContent (b :: content) (92 :: e :: spelling)
  | code {a b c d : UInt8} {n : Nat} {content spelling : Bytes} (hn : hexNumber? a b c d = some n)
      (hchar : n < 0xd800 ∨ 0xdfff < n) (hrest : SpellsContent content spelling) :
      SpellsContent (charBytes n ++ content) (92 :: byte 'u' :: a :: b :: c :: d :: spelling)
  | pair {a b c d a' b' c' d' : UInt8} {high low : Nat} {content spelling : Bytes}
      (hhigh : hexNumber? a b c d = some high) (hlow : hexNumber? a' b' c' d' = some low)
      (hrange : 0xd800 ≤ high ∧ high < 0xdc00 ∧ 0xdc00 ≤ low ∧ low ≤ 0xdfff)
      (hrest : SpellsContent content spelling) :
      SpellsContent (charBytes (joined high low) ++ content)
        (92 :: byte 'u' :: a :: b :: c :: d :: 92 :: byte 'u' :: a' :: b' :: c' :: d' :: spelling)

def SpellsText (s : String) (b : Bytes) : Prop :=
  ∃ spelling, SpellsContent (Utf8.encode s) spelling ∧ b = 34 :: (spelling ++ [34])

inductive Doc
  | null
  | bool (b : Bool)
  | number (l : Literal)
  | text (s : String)
  | list (items : List Doc)
  | map (members : List (String × Doc))

def AreBlanks (w : Bytes) : Prop := ∀ c ∈ w, isBlank c = true

/-- Something with white space before it, or with none. -/
def Spaced (spells : Bytes → Prop) (b : Bytes) : Prop :=
  ∃ blanks bare, AreBlanks blanks ∧ spells bare ∧ b = blanks ++ bare

namespace Doc

mutual

/-- The bytes that spell a document. White space may stand before every mark in it. -/
def Spells : Doc → Bytes → Prop
  | null => fun b => b = bytes ['n', 'u', 'l', 'l']
  | bool true => fun b => b = bytes ['t', 'r', 'u', 'e']
  | bool false => fun b => b = bytes ['f', 'a', 'l', 's', 'e']
  | number l => l.Spells
  | text s => SpellsText s
  | list [] => fun b => ∃ w, AreBlanks w ∧ b = byte '[' :: (w ++ [byte ']'])
  | list (item :: rest) => fun b => ∃ x y w, Spaced item.Spells x ∧ SpellsMoreItems rest y ∧
      AreBlanks w ∧ b = byte '[' :: (x ++ (y ++ (w ++ [byte ']'])))
  | map [] => fun b => ∃ w, AreBlanks w ∧ b = byte '\x7b' :: (w ++ [byte '\x7d'])
  | map ((name, value) :: rest) => fun b => ∃ x v y z w, Spaced (SpellsText name) x ∧
      AreBlanks v ∧ Spaced value.Spells y ∧ SpellsMoreMembers rest z ∧ AreBlanks w ∧
      b = byte '\x7b' :: (x ++ (v ++ byte ':' :: (y ++ (z ++ (w ++ [byte '\x7d'])))))

/-- The items after the first one, each after a comma. -/
def SpellsMoreItems : List Doc → Bytes → Prop
  | [] => fun b => b = []
  | item :: rest => fun b => ∃ w x y, AreBlanks w ∧ Spaced item.Spells x ∧
      SpellsMoreItems rest y ∧ b = w ++ byte ',' :: (x ++ y)

def SpellsMoreMembers : List (String × Doc) → Bytes → Prop
  | [] => fun b => b = []
  | (name, value) :: rest => fun b => ∃ w x v y z, AreBlanks w ∧ Spaced (SpellsText name) x ∧
      AreBlanks v ∧ Spaced value.Spells y ∧ SpellsMoreMembers rest z ∧
      b = w ++ byte ',' :: (x ++ (v ++ byte ':' :: (y ++ z)))

end

/-- White space may stand around a document. -/
def IsSpelledBy (d : Doc) (b : Bytes) : Prop :=
  ∃ x w, Spaced d.Spells x ∧ AreBlanks w ∧ b = x ++ w

mutual

/-- How deep lists and maps are nested. -/
def depth : Doc → Nat
  | list items => depthOfItems items + 1
  | map members => depthOfMembers members + 1
  | _ => 0

def depthOfItems : List Doc → Nat
  | [] => 0
  | item :: rest => max item.depth (depthOfItems rest)

def depthOfMembers : List (String × Doc) → Nat
  | [] => 0
  | (_, value) :: rest => max value.depth (depthOfMembers rest)

end

mutual

def InRange : Doc → Prop
  | number l => l.node ≠ .flaw .range
  | list items => ItemsInRange items
  | map members => MembersInRange members
  | _ => True

def ItemsInRange : List Doc → Prop
  | [] => True
  | item :: rest => item.InRange ∧ ItemsInRange rest

def MembersInRange : List (String × Doc) → Prop
  | [] => True
  | (_, value) :: rest => value.InRange ∧ MembersInRange rest

end

mutual

def node : Doc → Node
  | null => .null
  | bool b => .bool b
  | number l => l.node
  | text s => .text s
  | list items => .list (itemNodes items) none
  | map members => .map (memberNodes members) none

def itemNodes : List Doc → List Node
  | [] => []
  | item :: rest => item.node :: itemNodes rest

def memberNodes : List (String × Doc) → List (Node × Node)
  | [] => []
  | (name, value) :: rest => (.text name, value.node) :: memberNodes rest

end

mutual

def tokens : Doc → List Token
  | null => [.scalar .null]
  | bool b => [.scalar (.bool b)]
  | number l => [.scalar l.node]
  | text s => [.scalar (.text s)]
  | list [] => [.openList, .closeList]
  | list (item :: rest) => .openList :: (item.tokens ++ moreItems rest ++ [.closeList])
  | map [] => [.openMap, .closeMap]
  | map ((name, value) :: rest) =>
    .openMap :: .scalar (.text name) :: .colon ::
      (value.tokens ++ moreMembers rest ++ [.closeMap])

def moreItems : List Doc → List Token
  | [] => []
  | item :: rest => .comma :: (item.tokens ++ moreItems rest)

def moreMembers : List (String × Doc) → List Token
  | [] => []
  | (name, value) :: rest =>
    .comma :: .scalar (.text name) :: .colon :: (value.tokens ++ moreMembers rest)

end

end Doc

end Allegiance.Json
