import TypedClient.Failure
import TypedClient.Files.Path

/-! # File trees

Directories and files as a value, with what reading and writing do to them.
-/

namespace TypedClient

inductive FileEntry where
  | directory
  | file (content : ByteArray)
  deriving BEq

structure FileTree where
  /-- What stands at each place below the root; a place is given by the names that lead to it. -/
  entries : List (List String × FileEntry) := []
  /-- The directory that relative paths begin in. -/
  current : List String := []

namespace FileTree

def get? (t : FileTree) (place : List String) : Option FileEntry :=
  if place.isEmpty then some .directory else t.entries.lookup place

def set (t : FileTree) (place : List String) (e : FileEntry) : FileTree :=
  if (t.entries.lookup place).isSome then
    { t with entries := t.entries.map fun x => if x.1 = place then (place, e) else x }
  else { t with entries := t.entries ++ [(place, e)] }

/-! ## Looking up -/

/-- Follows the parts of a path; each is looked up in a directory. -/
def follow (t : FileTree) (place : List String) : List String → Except FileError (List String)
  | []      => .ok place
  | p :: ps =>
    match t.get? place with
    | none            => .error .missing
    | some (.file _)  => .error .notDirectory
    | some .directory =>
      if p = "." then t.follow place ps
      else if p = ".." then t.follow place.dropLast ps
      else t.follow (place ++ [p]) ps

/-- Where a path begins. -/
def start (t : FileTree) (path : String) : List String :=
  if Path.isAbsolute path then [] else t.current

/-- What a path names. A slash at the end asks for a directory. -/
def find (t : FileTree) (path : String) : Except FileError FileEntry :=
  if path.isEmpty then .error .missing
  else do
    -- a dot after the last slash can be followed only from a directory
    let parts := Path.parts path ++ if path.endsWith "/" then ["."] else []
    let place ← t.follow (t.start path) parts
    match t.get? place with
    | some e => .ok e
    | none   => .error .missing

def isDirectory (t : FileTree) (path : String) : Bool :=
  match t.find path with
  | .ok .directory => true
  | _              => false

/-- The directory that a path ends in, and the last part of the path. -/
def locate (t : FileTree) (path : String) : Except FileError (List String × String) :=
  match (Path.parts path).getLast? with
  | none      => .error (if path.isEmpty then .missing else .exists)
  | some last => do
    let place ← t.follow (t.start path) ((Path.parts path).dropLast ++ ["."])
    .ok (place, last)

/-! ## Reading and writing -/

/-- The text of a file. -/
def read (t : FileTree) (path : String) : Except FileError String :=
  match t.find path with
  | .error e        => .error e
  | .ok .directory  => .error .isDirectory
  | .ok (.file bytes) =>
    match String.fromUTF8? bytes with
    | some s => .ok s
    | none   => .error .notUtf8

/-- Makes one directory. -/
def makeDirectory (t : FileTree) (path : String) : Except FileError FileTree := do
  let (place, last) ← t.locate path
  if last = "." ∨ last = ".." ∨ (t.get? (place ++ [last])).isSome then .error .exists
  else .ok (t.set (place ++ [last]) .directory)

/-- Makes a directory, given with those it lies in, innermost first. Directories that stand in the way
of no others are kept. -/
def makeAll (t : FileTree) : List String → Except FileError Unit × FileTree
  | []      => (.ok (), t)
  | p :: ps =>
    if p.isEmpty then (.ok (), t)
    else
      -- a fault does not count if the directory is there
      let settle (t : FileTree) (e : FileError) : Except FileError Unit × FileTree :=
        (if t.isDirectory p then .ok () else .error e, t)
      match t.makeDirectory p with
      | .ok t           => (.ok (), t)
      | .error .missing =>
        match t.makeAll ps with
        | (.error e, t) => (.error e, t)
        | (.ok _, t)    =>
          match t.makeDirectory p with
          | .ok t    => (.ok (), t)
          | .error e => settle t e
      | .error e        => settle t e

/-- Makes a directory and those it lies in; it may exist already. -/
def createDirectories (t : FileTree) (path : String) : Except FileError Unit × FileTree :=
  t.makeAll (Path.ancestors path)

/-- Writes a text to a file, which may exist already. -/
def write (t : FileTree) (path text : String) : Except FileError FileTree := do
  let (place, last) ← t.locate path
  if last = "." ∨ last = ".." ∨ t.get? (place ++ [last]) == some .directory then
    .error .isDirectory
  else .ok (t.set (place ++ [last]) (.file text.toUTF8))

end FileTree

end TypedClient
