import Allegiance.Document.Reading
import Allegiance.Json.Token

namespace Allegiance.Json

open Document (Break Flaw Node Reader Misread)

/-- A list or map that is still open, its content last first. An entry is a map with a member whose
value is due. -/
inductive Frame
  | list (items : List Node)
  | map (members : List (Node × Node))
  | entry (members : List (Node × Node)) (name : Node)

abbrev Stack := List Frame

/-- What may come next. A token that cannot stand where it stands ends in `done`, with a flaw, and
what comes after it does not count. -/
inductive State
  | value (stack : Stack)
  | first (top : Frame) (stack : Stack)
  | next (top : Frame) (stack : Stack)
  | member (members : List (Node × Node)) (stack : Stack)
  | colon (members : List (Node × Node)) (name : Node) (stack : Stack)
  | done (n : Node) (surplus : Bool)
  | failed (n : Node)

namespace Frame

def cut (f : Flaw) : Frame → Node
  | list items => .list items.reverse (some f)
  | map members => .map members.reverse (some f)
  | entry members name => .map ((name, .flaw f) :: members).reverse (some f)

end Frame

namespace State

def put (n : Node) : Stack → State
  | [] => .done n false
  | .list items :: stack => .next (.list (n :: items)) stack
  | .entry members name :: stack => .next (.map ((name, n) :: members)) stack
  | .map members :: stack => .next (.map ((.flaw .stray, n) :: members)) stack

/-- The tree around a value after which nothing can be read, with all that is open closed by the
flaw. -/
def enclose (f : Flaw) (n : Node) (stack : Stack) : Node :=
  stack.foldl
    (fun n frame =>
      match frame with
      | .list items => .list (n :: items).reverse (some f)
      | .entry members name => .map ((name, n) :: members).reverse (some f)
      | .map members => .map ((n, .flaw f) :: members).reverse (some f))
    n

def takeValue (stack : Stack) : Token → State
  | .openList => .first (.list []) stack
  | .openMap => .first (.map []) stack
  | .scalar n => put n stack
  | _ => .failed (enclose .stray (.flaw .stray) stack)

/-- Take a token where a name is due. Something else in its place is shown as a name. -/
def takeName (members : List (Node × Node)) (stack : Stack) (t : Token) : State :=
  let fail (n : Node) : State :=
    .failed (enclose .stray (.map ((n, .flaw .stray) :: members).reverse (some .stray)) stack)
  match t with
  | .scalar (.text s) => .colon members (.text s) stack
  | .scalar (.flaw (.text w p)) => .colon members (.flaw (.text w p)) stack
  | .scalar n => fail n
  | .openList => fail (.list [] none)
  | .openMap => fail (.map [] none)
  | _ => fail (.flaw .stray)

def step : State → Token → State
  | value stack, t => takeValue stack t
  | first (.list items) stack, .closeList => put (.list items.reverse none) stack
  | first (.map members) stack, .closeMap => put (.map members.reverse none) stack
  | first (.list items) stack, t => takeValue (.list items :: stack) t
  | first (.map members) stack, t => takeName members stack t
  | next (.list items) stack, .comma => .value (.list items :: stack)
  | next (.list items) stack, .closeList => put (.list items.reverse none) stack
  | next (.map members) stack, .comma => .member members stack
  | next (.map members) stack, .closeMap => put (.map members.reverse none) stack
  | first top stack, _ | next top stack, _ => .failed (enclose .stray (top.cut .stray) stack)
  | member members stack, t => takeName members stack t
  | colon members name stack, .colon => .value (.entry members name :: stack)
  | colon members name stack, _ =>
    .failed (enclose .stray ((Frame.entry members name).cut .stray) stack)
  | done n _, _ => .done n true
  | failed n, _ => .failed n

/-- The tree when the text has ended, and whether there was more than one value. -/
def finish : State → Node × Bool
  | value stack => (enclose .missing (.flaw .missing) stack, false)
  | first top stack | next top stack => (enclose .missing (top.cut .missing) stack, false)
  | member members stack =>
    (enclose .missing (.map ((.flaw .missing, .flaw .missing) :: members).reverse (some .missing))
      stack, false)
  | colon members name stack =>
    (enclose .missing ((Frame.entry members name).cut .missing) stack, false)
  | done n surplus => (n, surplus)
  | failed n => (n, false)

end State

/-- The tree of a text, and whether something follows it. -/
def document (b : Bytes) : Node × Bool :=
  ((Token.ofBytes b).foldl State.step (.value [])).finish

def readStart {α : Type} (reader : Reader α) (b : Bytes) : Except Misread α :=
  reader (document b).1

def read {α : Type} (reader : Reader α) (b : Bytes) : Except Misread α :=
  match reader (document b).1 with
  | .error e => .error e
  | .ok x => if (document b).2 then .error (.broken .malformed) else .ok x

end Allegiance.Json
