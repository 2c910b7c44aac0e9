import Allegiance.Files.Path
import Allegiance.Host.Basic

namespace Allegiance

inductive Entry
  | file (content : Bytes)
  | directory
  deriving DecidableEq

/-- The names from a place up to the root of the file system. -/
abbrev Place := List String

/-- Files and directories without links, and the directory that relative paths start in. -/
structure FileSystem where
  entry : Place → Option Entry
  start : Place

namespace FileSystem

def longestName : Nat := 255

def longestPath : Nat := 4095

def emptyAt (start : Place) : FileSystem where
  entry := fun p => if p.isSuffixOf start then some .directory else none
  start

def set (fs : FileSystem) (p : Place) (e : Option Entry) : FileSystem :=
  { fs with entry := fun q => if q = p then e else fs.entry q }

def enter (fs : FileSystem) (p : Place) : Except FileError Unit :=
  match fs.entry p with
  | some .directory => .ok ()
  | some (.file _) => .error .notDirectory
  | none => .error .notFound

def step (fs : FileSystem) (p : Place) (piece : String) : Except FileError Place := do
  fs.enter p
  if piece = "" ∨ piece = "." then pure p
  else if piece = ".." then pure p.tail
  else if longestName < piece.utf8ByteSize then .error .nameTooLong
  else pure (piece :: p)

def parse (fs : FileSystem) (path : String) : Except FileError (Place × List String) :=
  if path.toList.any (· = '\x00') then .error .nulInName
  else if path = "" then .error .notFound
  else if longestPath < path.utf8ByteSize then .error .nameTooLong
  else
    .ok (if Path.isAbsolute path then [] else fs.start,
      (Path.pieces path.toList).map String.ofList)

/-- The place a path leads to, where there may be nothing yet. -/
def find (fs : FileSystem) (path : String) : Except FileError Place := do
  let (start, pieces) ← fs.parse path
  pieces.foldlM fs.step start

def pathExists (fs : FileSystem) (path : String) : Bool :=
  match fs.find path with
  | .ok p => (fs.entry p).isSome
  | .error _ => false

def read (fs : FileSystem) (path : String) : Except FileError Bytes := do
  match fs.entry (← fs.find path) with
  | some (.file content) => .ok content
  | some .directory => .error .isDirectory
  | none => .error .notFound

/-- Write a file. A path that ends in a slash cannot be a file's. -/
def write (fs : FileSystem) (path : String) (content : Bytes) : Except FileError FileSystem := do
  let (start, pieces) ← fs.parse path
  let named := pieces.reverse.dropWhile (· = "")
  if pieces.getLast? = some "" ∧ named.head?.any (fun p => p ≠ "." ∧ p ≠ "..") then
    fs.enter (← named.tail.reverse.foldlM fs.step start)
    .error .isDirectory
  else
    let p ← pieces.foldlM fs.step start
    match fs.entry p with
    | some .directory => .error .isDirectory
    | _ => .ok (fs.set p (some (.file content)))

/-- Go along the pieces of a path and make what is missing, as far as it can be made. -/
def makeAlong (fs : FileSystem) (p : Place) : List String → FileSystem × Except FileError Unit
  | [] => (fs, .ok ())
  | piece :: rest =>
    match fs.step p piece with
    | .error e => (fs, .error e)
    | .ok p =>
      match fs.entry p with
      | some .directory => fs.makeAlong p rest
      | some (.file _) =>
        (fs, .error (if rest.all (· = "") then .occupied else .notDirectory))
      | none => (fs.set p (some .directory)).makeAlong p rest

/-- Make a directory and those it lies in. The empty path is the directory one is in. -/
def makeDirectories (fs : FileSystem) (path : String) : FileSystem × Except FileError Unit :=
  if path = "" then (fs, .ok ())
  else
    match fs.parse path with
    | .error e => (fs, .error e)
    | .ok (start, pieces) => fs.makeAlong start pieces

/-- Take a file away, if it is one. -/
def remove (fs : FileSystem) (path : String) : FileSystem :=
  match fs.find path with
  | .ok p => fs.set p none
  | .error _ => fs

end FileSystem

/-- A machine whose clock stands still. -/
structure Machine where
  files : FileSystem
  journal : Array Event
  clock : Instant

instance : Host (StateM Machine) where
  pathExists path := do pure ((← get).files.pathExists path)
  readFile path := do pure ((← get).files.read path)
  writeFile path content := do
    let machine ← get
    match machine.files.write path content with
    | .ok files => set { machine with files }; pure (.ok ())
    | .error e => pure (.error e)
  makeDirectories path := do
    let machine ← get
    let (files, result) := machine.files.makeDirectories path
    set { machine with files }
    pure result
  note event := modify (fun machine => { machine with journal := machine.journal.push event })
  now := do pure (← get).clock

end Allegiance
