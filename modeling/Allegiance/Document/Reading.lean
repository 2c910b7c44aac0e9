import Allegiance.Binary64.Rounding
import Allegiance.Document.Misfit

namespace Allegiance.Document

abbrev Reader (α : Type) := Node → Except Misread α

def Check.asRead : Check → Except Misread Unit
  | .ok () => .ok ()
  | .error b => .error (.broken b)

def within {α : Type} (s : Segment) (r : Except Misread α) : Except Misread α :=
  r.mapError (Misread.under s)

namespace Node

def unexpected {α : Type} (wanted : String) (n : Node) : Except Misread α :=
  let found (f : Found) : Except Misread α := .error (.misfit [] (.wrongType f wanted))
  match n with
  | null => found .null
  | bool b => found (.bool b)
  | integer i => found (.integer i)
  | real x => found (.real x)
  | text s => found (.text s)
  | list .. => found .sequence
  | moment | map .. => found .map
  | flaw f => .error (.broken f.wanted)

def readTextAs (wanted : String) : Reader String
  | text s => .ok s
  | n => n.unexpected wanted

def readText : Reader String := readTextAs "a string"

def readNat (bound : Nat) (wanted : String) : Reader Nat
  | integer i =>
    if 0 ≤ i ∧ i < bound then .ok i.toNat else .error (.misfit [] (.outOfRange i wanted))
  | n => n.unexpected wanted

def readUInt32 : Reader UInt32 := fun n => (readNat UInt32.size "u32" n).map UInt32.ofNat

def readUInt16 : Reader UInt16 := fun n => (readNat UInt16.size "u16" n).map UInt16.ofNat

def readReal : Reader Binary64
  | real x => .ok x
  | integer i => .ok (.ofInt i)
  | n => n.unexpected "f64"

def readInstant : Reader Instant
  | text s => (Instant.ofText s).mapError (fun f => .misfit [] (.badInstant f))
  | n => n.unexpected "an RFC 3339 formatted date and time string"

/-- Null stands for nothing. -/
def readOption {α : Type} (reader : Reader α) : Reader (Option α)
  | null => .ok none
  | n => (reader n).map some

def readAll {α : Type} (reader : Reader α) : Nat → List Node → Except Misread (List α)
  | _, [] => .ok []
  | i, item :: rest => do
    let x ← within (.index i) (reader item)
    let xs ← readAll reader (i + 1) rest
    pure (x :: xs)

def readList {α : Type} (reader : Reader α) : Reader (List α)
  | list items cut => do
    let xs ← readAll reader 0 items
    (closed cut).asRead
    pure xs
  | n => n.unexpected "a sequence"

def nameOf : Reader String
  | text s => .ok s
  | flaw f => .error (.broken f.asName)
  | _ => .error (.broken .malformed)

end Node

def pickVariant {α : Type} (variants : List (String × α)) (name : String) : Except Misread α :=
  match variants.lookup name with
  | some x => .ok x
  | none => .error (.misfit [] (.unknownVariant name (variants.map Prod.fst)))

namespace Node

/-- In JSON a name may also be the only name of a map whose value is null. -/
def readJsonVariant {α : Type} (variants : List (String × α)) : Reader α
  | text s => pickVariant variants s
  | flaw f => .error (.broken f.asName)
  | map [] cut => .error (.broken (cut.elim .malformed Flaw.asName))
  | map ((name, value) :: rest) cut => do
    let x ← match name with
      | text s => pickVariant variants s
      | other => other.unexpected "variant identifier"
    match value with
    | null => pure ()
    | other => other.unexpected "unit"
    if rest.isEmpty then (closed cut).asRead else .error (.broken .malformed)
    pure x
  | _ => .error (.broken .malformed)

/-- In TOML a name may also be the only name of a table whose value is an empty table or array. -/
def readTomlVariant {α : Type} (variants : List (String × α)) : Reader α
  | text s => pickVariant variants s
  | map [] _ => .error (.misfit [] .noVariant)
  | map [(name, value)] _ => do
    let x ← pickVariant variants (← nameOf name)
    match value with
    | map [] _ | list [] _ => pure x
    | _ => .error (.misfit [] .filledVariant)
  | map _ _ => .error (.misfit [] .manyVariants)
  | _ => .error (.misfit [] .notVariant)

def readVariant {α : Type} (d : Dialect) (variants : List (String × α)) : Reader α :=
  match d with
  | .json => readJsonVariant variants
  | .toml => readTomlVariant variants

end Node

def once {α : Type} (name : String) (slot : Option α) (reader : Reader α) (value : Node) :
    Except Misread (Option α) :=
  match slot with
  | some _ => .error (.misfit [] (.repeatedField name))
  | none => within (.name name) ((reader value).map some)

def required {α : Type} (name : String) (slot : Option α) : Except Misread α :=
  match slot with
  | some x => .ok x
  | none => .error (.misfit [] (.missingField name))

/-- Members are taken one after the other; then the map has to be closed. -/
def foldMembers {σ : Type} (step : σ → String → Node → Except Misread σ) (cut : Option Flaw) :
    List (Node × Node) → σ → Except Misread σ
  | [], state => do (closed cut).asRead; pure state
  | (name, value) :: rest, state => do
    let name ← name.nameOf
    let state ← step state name value
    foldMembers step cut rest state

structure Items where
  items : List Node
  cut : Option Flaw

namespace Items

def get? {α : Type} (l : Items) (i : Nat) (reader : Reader α) : Except Misread (Option α) :=
  match l.items[i]? with
  | some n => within (.index i) ((reader n).map some)
  | none => do (closed l.cut).asRead; pure none

/-- The field at a place, which has to be there. `wanted` tells what the list stands for. -/
def get {α : Type} (l : Items) (i : Nat) (wanted : String) (reader : Reader α) :
    Except Misread α := do
  match (← l.get? i reader) with
  | some x => pure x
  | none => .error (.misfit [] (.wrongLength i wanted))

/-- More fields than `count` are passed by in TOML only. -/
def finish (d : Dialect) (l : Items) (count : Nat) : Except Misread Unit :=
  match d with
  | .toml => pure ()
  | .json => if count < l.items.length then .error (.broken .malformed) else (closed l.cut).asRead

end Items

def readRecord {α : Type} (wanted : String) (ofItems : Items → Except Misread α)
    (ofMembers : List (Node × Node) → Option Flaw → Except Misread α) : Reader α
  | .list items cut => ofItems ⟨items, cut⟩
  | .map members cut => ofMembers members cut
  | .moment => ofMembers [] none
  | n => n.unexpected wanted

end Allegiance.Document
