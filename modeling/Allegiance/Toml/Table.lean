import Allegiance.Document.Node

namespace Allegiance.Toml

open Document (Node)

/-- A table may be made by a header, by a dotted key, or only implied by a longer header, and that
decides who may add to it later. -/
structure Origin where
  isImplied : Bool
  isDotted : Bool
  deriving DecidableEq

/-- A table that a header or braces stand for. -/
def Origin.written : Origin := ⟨false, false⟩

inductive Item
  | value (n : Node)
  | table (origin : Origin) (entries : List (String × Item))
  | tables (elements : List (List (String × Item)))

abbrev Entries := List (String × Item)

mutual

def Item.toNode : Item → Node
  | .value n => n
  | .table _ entries => .map (nodesOf entries) none
  | .tables elements => .list (tableNodesOf elements) none

def nodesOf : List (String × Item) → List (Node × Node)
  | [] => []
  | (key, item) :: rest => (.text key, item.toNode) :: nodesOf rest

def tableNodesOf : List (List (String × Item)) → List Node
  | [] => []
  | entries :: rest => .map (nodesOf entries) none :: tableNodesOf rest

end

namespace Entries

def get? (es : Entries) (key : String) : Option Item := es.lookup key

def add (es : Entries) (key : String) (item : Item) : Entries := es ++ [(key, item)]

def remove (es : Entries) (key : String) : Entries := es.filter (fun e => e.1 ≠ key)

def replace (es : Entries) (key : String) (item : Item) : Entries :=
  es.map (fun e => if e.1 = key then (key, item) else e)

/-- Work on the table at the end of a path. Tables missing on the way are made. The way goes through
the last element of an array of tables; a dotted key cannot enter a table that was written out. -/
def descend (dotted : Bool) (work : Origin → Entries → Option Entries) :
    List String → Origin → Entries → Option Entries
  | [], origin, es => work origin es
  | key :: path, _, es =>
    match es.get? key with
    | none => do
      let made : Origin := ⟨true, dotted⟩
      let inner ← descend dotted work path made []
      pure (es.add key (.table made inner))
    | some (.value _) => none
    | some (.table origin inner) =>
      if dotted ∧ !origin.isImplied then none
      else do pure (es.replace key (.table origin (← descend dotted work path origin inner)))
    | some (.tables elements) => do
      let last ← elements.getLast?
      let inner ← descend dotted work path .written last
      pure (es.replace key (.tables (elements.dropLast ++ [inner])))

/-- Add a value under a dotted key. A table that was not made by dotted keys takes none of them. -/
def addPair (path : List String) (key : String) (value : Node) (es : Entries) : Option Entries :=
  descend true
    (fun origin es =>
      if origin.isDotted = path.isEmpty then none
      else if (es.get? key).isSome then none
      else some (es.add key (.value value)))
    path .written es

end Entries

inductive Statement
  | pair (path : List String) (key : String) (value : Node)
  | header (path : List String) (key : String)
  | arrayHeader (path : List String) (key : String)

/-- The tables so far, and the one that values go to: the top one, or one that waits to be put in its
place. -/
structure Draft where
  root : Entries
  place : Option (Bool × List String × String)
  current : Entries

namespace Draft

def empty : Draft := ⟨[], none, []⟩

def settle (d : Draft) : Option Entries :=
  match d.place with
  | none => some d.current
  | some (isArray, path, key) =>
    Entries.descend false
      (fun _ es =>
        match isArray, es.get? key with
        | true, some (.tables elements) => some (es.replace key (.tables (elements ++ [d.current])))
        | true, none => some (es.add key (.tables [d.current]))
        | false, none => some (es.add key (.table .written d.current))
        | _, some _ => none)
      path .written d.root

/-- Start a table. One that was only implied so far is taken out of its parent and goes on. -/
def startTable (root : Entries) (path : List String) (key : String) : Option Draft := do
  let rest ← Entries.descend false (fun _ es => some (es.remove key)) path .written root
  let found ← lookup path root
  pure ⟨rest, some (false, path, key), found⟩
where
  lookup : List String → Entries → Option Entries
    | [], es =>
      match es.get? key with
      | none => some []
      | some (.table origin inner) => if origin.isImplied ∧ !origin.isDotted then some inner else none
      | some _ => none
    | k :: path, es =>
      match es.get? k with
      | none => some []
      | some (.value _) => none
      | some (.table _ inner) => lookup path inner
      | some (.tables elements) => elements.getLast?.bind (lookup path)

/-- Start an element of an array of tables. -/
def startElement (root : Entries) (path : List String) (key : String) : Option Draft := do
  let root ← Entries.descend false
    (fun _ es =>
      match es.get? key with
      | none => some (es.add key (.tables []))
      | some (.tables _) => some es
      | some _ => none)
    path .written root
  pure ⟨root, some (true, path, key), []⟩

def take (d : Draft) : Statement → Option Draft
  | .pair path key value => do pure { d with current := ← d.current.addPair path key value }
  | .header path key => do startTable (← d.settle) path key
  | .arrayHeader path key => do startElement (← d.settle) path key

end Draft

def treeOf (statements : List Statement) : Option Node := do
  let d ← statements.foldlM Draft.take .empty
  pure (.map (nodesOf (← d.settle)) none)

end Allegiance.Toml
