namespace Allegiance.Path

/-- The pieces between slashes; one more than there are slashes. -/
def pieces : List Char → List (List Char)
  | [] => [[]]
  | c :: rest =>
    if c = '/' then [] :: pieces rest
    else
      match pieces rest with
      | [] => [[c]]
      | p :: ps => (c :: p) :: ps

def joinPieces : List (List Char) → List Char
  | [] => []
  | [p] => p
  | p :: ps => p ++ '/' :: joinPieces ps

def isAbsolute (path : String) : Bool := path.toList.head? = some '/'

def isStep (piece : List Char) : Bool := piece ≠ [] && piece ≠ ['.']

/-- What a path starts with besides its steps: a slash, a point, or nothing. -/
def anchor : List Char → List Char
  | '/' :: _ => ['/']
  | ['.'] => ['.']
  | '.' :: '/' :: _ => ['.']
  | _ => []

/-- The pieces after the anchor, without those after the last step. -/
def steps (cs : List Char) : List (List Char) :=
  ((pieces (cs.drop (anchor cs).length)).reverse.dropWhile (fun p => !isStep p)).reverse

/-- The last name of a path; two points are no name. -/
def fileName? (path : String) : Option (List Char) :=
  match (steps path.toList).getLast? with
  | some p => if p = ['.', '.'] then none else some p
  | none => none

/-- The parts of a name before and after its last point, unless it starts with it. -/
def splitName (name : List Char) : List Char × Option (List Char) :=
  let ending := (name.reverse.takeWhile (· ≠ '.')).reverse
  let before := name.take (name.length - ending.length - 1)
  if ending.length = name.length ∨ before = [] then (name, none) else (before, some ending)

def stem? (path : String) : Option String :=
  (fileName? path).map (fun n => String.ofList (splitName n).1)

def extension? (path : String) : Option String :=
  (fileName? path).bind (fun n => (splitName n).2.map String.ofList)

def parent? (path : String) : Option String :=
  let cs := path.toList
  let start := anchor cs
  match (steps cs).reverse with
  | _ :: before =>
    let kept := (before.dropWhile (fun p => !isStep p)).reverse
    some (String.ofList (start ++ joinPieces kept))
  | [] => if start = ['.'] then some "" else none

def join (directory path : String) : String :=
  if isAbsolute path then path
  else
    match directory.toList.getLast? with
    | none => path
    | some c => if c = '/' then directory ++ path else directory ++ "/" ++ path

end Allegiance.Path
