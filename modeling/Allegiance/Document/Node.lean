import Allegiance.Binary64.Basic
import Allegiance.Document.Flaw

namespace Allegiance.Document

/-- Members of a map are in the order of the text, repeated names included. A list or map that
breaks off has its flaw after what was read of it. -/
inductive Node
  | null
  | bool (b : Bool)
  | integer (i : Int)
  | real (x : Binary64)
  | text (s : String)
  | moment
  | list (items : List Node) (cut : Option Flaw)
  | map (members : List (Node × Node)) (cut : Option Flaw)
  | flaw (f : Flaw)

instance : Inhabited Node := ⟨.null⟩

abbrev Check := Except Break Unit

def Check.of : Option Break → Check
  | none => .ok ()
  | some b => .error b

def closed (cut : Option Flaw) : Check := Check.of (cut.map Flaw.wanted)

namespace Node

def checkName : Node → Check
  | text _ => .ok ()
  | flaw f => .error f.asName
  | _ => .error .malformed

def checkNamePassed : Node → Check
  | text _ => .ok ()
  | flaw f => Check.of f.asNamePassed
  | _ => .error .malformed

mutual

/-- Whether a value that nobody wants is sound enough. -/
def passedOver : Node → Check
  | list items cut => do passedOverAll items; closed cut
  | map members cut => do passedOverMembers members; closed cut
  | flaw f => Check.of f.passed
  | _ => .ok ()

def passedOverAll : List Node → Check
  | [] => .ok ()
  | item :: rest => do item.passedOver; passedOverAll rest

def passedOverMembers : List (Node × Node) → Check
  | [] => .ok ()
  | (name, value) :: rest => do name.checkNamePassed; value.passedOver; passedOverMembers rest

end

mutual

/-- Whether a value is sound all through and nested at most `room` deep. -/
def sound (room : Nat) : Node → Check
  | list items cut =>
    match room with
    | 0 => .error .malformed
    | room + 1 => do soundAll room items; closed cut
  | map members cut =>
    match room with
    | 0 => .error .malformed
    | room + 1 => do soundMembers room members; closed cut
  | flaw f => .error f.wanted
  | _ => .ok ()

def soundAll (room : Nat) : List Node → Check
  | [] => .ok ()
  | item :: rest => do item.sound room; soundAll room rest

def soundMembers (room : Nat) : List (Node × Node) → Check
  | [] => .ok ()
  | (name, value) :: rest => do name.checkName; value.sound room; soundMembers room rest

end

end Node

end Allegiance.Document
