/-! # Paths

Paths as texts, with slashes between their parts.
-/

namespace TypedClient.Path

/-- The parts of a path; several slashes count as one. -/
def parts (path : String) : List String :=
  ((path.toList.splitOn '/').filter (!·.isEmpty)).map String.ofList

def isAbsolute (path : String) : Bool := path.toList.head? == some '/'

/-- The parts of a path without those that stay in place, except one at the beginning. -/
def steps (path : String) : List String :=
  let moves := (parts path).filter (· != ".")
  if (parts path).head? == some "." && !isAbsolute path then "." :: moves else moves

/-- The path of some steps. -/
def ofSteps (absolute : Bool) (steps : List String) : String :=
  (if absolute then "/" else "") ++ String.intercalate "/" steps

/-- The path itself and the directories it leads through, innermost first. -/
def ancestors (path : String) : List String :=
  let steps := steps path
  path :: ((List.range steps.length).reverse.map fun n =>
    ofSteps (isAbsolute path) (steps.take n))

/-- The name of the file or directory that a path names, if it names one. -/
def name? (path : String) : Option String :=
  (steps path).getLast?.filter fun s => s != "." && s != ".."

/-- A name without its extension, which begins at the last dot. A dot at the beginning does not
begin an extension. -/
def withoutExtension (name : String) : String :=
  match (name.toList.reverse.dropWhile (· != '.')).drop 1 with
  | [] => name
  | cs => String.ofList cs.reverse

/-- The name that a path ends with, without its extension. -/
def stem? (path : String) : Option String := (name? path).map withoutExtension

/-- The path of an entry of a directory. -/
def join (directory name : String) : String :=
  if directory.isEmpty || directory.endsWith "/" then directory ++ name
  else directory ++ "/" ++ name

end TypedClient.Path
