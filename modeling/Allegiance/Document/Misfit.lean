import Allegiance.Binary64.Shortest
import Allegiance.Document.Node
import Allegiance.Instant.Reader
import Allegiance.Text.Quoted

namespace Allegiance.Document

/-- The two formats differ in how numbers are shown and in what may stand for a name of a list of
names. -/
inductive Dialect
  | json
  | toml
  deriving DecidableEq

inductive Found
  | null
  | bool (b : Bool)
  | integer (i : Int)
  | real (x : Binary64)
  | text (s : String)
  | sequence
  | map
  deriving DecidableEq

inductive Misfit
  | wrongType (found : Found) (wanted : String)
  | outOfRange (found : Int) (wanted : String)
  | wrongLength (length : Nat) (wanted : String)
  | unknownVariant (name : String) (variants : List String)
  | noVariant
  | manyVariants
  | notVariant
  | filledVariant
  | missingField (name : String)
  | repeatedField (name : String)
  | badInstant (flaw : InstantFlaw)
  deriving DecidableEq

def Dialect.realStyle : Dialect → Binary64.Style
  | json => .scientific
  | toml => .pointed

def Found.describe (d : Dialect) : Found → String
  | null => "null"
  | bool b => if b then "boolean `true`" else "boolean `false`"
  | integer i => "integer `" ++ toString i ++ "`"
  | real x => "floating point `" ++ x.toText d.realStyle ++ "`"
  | text s => "string " ++ Text.quoted .text s
  | sequence => "sequence"
  | map => "map"

def ticked (name : String) : String := "`" ++ name ++ "`"

def choice : List String → String
  | [a] => ticked a
  | [a, b] => ticked a ++ " or " ++ ticked b
  | names => "one of " ++ ", ".intercalate (names.map ticked)

namespace Misfit

def message (d : Dialect) : Misfit → String
  | wrongType found wanted => "invalid type: " ++ found.describe d ++ ", expected " ++ wanted
  | outOfRange found wanted =>
    "invalid value: " ++ (Found.integer found).describe d ++ ", expected " ++ wanted
  | wrongLength length wanted => "invalid length " ++ toString length ++ ", expected " ++ wanted
  | unknownVariant name variants =>
    "unknown variant " ++ ticked name ++ ", expected " ++ choice variants
  | noVariant => "wanted exactly 1 element, found 0 elements"
  | manyVariants => "wanted exactly 1 element, more than 1 element"
  | notVariant => "wanted string or table"
  | filledVariant => "expected empty table"
  | missingField name => "missing field " ++ ticked name
  | repeatedField name => "duplicate field " ++ ticked name
  | badInstant flaw => flaw.message

end Misfit

inductive Segment
  | name (s : String)
  | index (i : Nat)
  deriving DecidableEq

/-- Why a value is not read: its document breaks, or it says something else, at the end of a path. -/
inductive Misread
  | broken (b : Break)
  | misfit (path : List Segment) (cause : Misfit)
  deriving DecidableEq

/-- The same failure seen from outside the value. -/
def Misread.under (s : Segment) : Misread → Misread
  | broken b => .broken b
  | misfit path cause => .misfit (s :: path) cause

def Break.message : Break → String
  | malformed => "the document is malformed"
  | truncated => "the document ends too early"

def Misread.message (d : Dialect) : Misread → String
  | broken b => b.message
  | misfit _ cause => cause.message d

/-- A path in a message: names after points, indices in brackets. -/
def pathText : List Segment → String
  | [] => ""
  | .name s :: rest => s ++ rest.foldl step ""
  | .index i :: rest => "[" ++ toString i ++ "]" ++ rest.foldl step ""
where
  step (text : String) : Segment → String
    | .name s => text ++ "." ++ s
    | .index i => text ++ "[" ++ toString i ++ "]"

end Allegiance.Document
