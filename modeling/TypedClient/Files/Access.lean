import TypedClient.Files.Tree

/-! # Access to files

What a run needs of a file system. A file tree offers it, and so may any other.
-/

namespace TypedClient

class FileAccess (m : Type → Type) where
  /-- The text of a file. -/
  read (path : String) : m (Except FileError String)
  /-- Makes a directory and those it lies in. -/
  createDirectories (path : String) : m (Except FileError Unit)
  /-- Writes a text to a file. -/
  write (path text : String) : m (Except FileError Unit)

instance : FileAccess (StateM FileTree) where
  read path t := (t.read path, t)
  createDirectories path t := t.createDirectories path
  write path text t :=
    match t.write path text with
    | .ok t    => (.ok (), t)
    | .error e => (.error e, t)

end TypedClient
