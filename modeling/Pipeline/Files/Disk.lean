/-
Disks: a file tree, seen from a working directory.

A path is typed as names between slashes. It begins at the root when it begins
with a slash, and otherwise at the working directory. Each name is looked up in
the directory that the names before it lead to; an empty name and a single dot
stay there, two dots lead one directory up. So a slash at the end asks for a
directory.
-/
import Pipeline.Files.FileTree

set_option autoImplicit false

namespace Pipeline

/-- A file tree and the path of the working directory. -/
structure Disk where
  root : FileTree
  home : List String

namespace Disk

/-! ## Paths -/

/-- The names of a typed path. -/
def namesOf (path : String) : List String := (path.toList.splitOn '/').map String.ofList

/-- Where a typed path begins. -/
def start (disk : Disk) (path : String) : List String :=
  if path.startsWith "/" then [] else disk.home

/-- A name stays in its directory. -/
def isStay (name : String) : Bool := name = "" || name = "."

/-- The path that a name leads to from a directory. -/
def step (disk : Disk) (here : List String) (name : String) : Except FileFault (List String) := do
  let entries ← (← FileTree.at? here disk.root).names?
  if isStay name then return here
  else if name = ".." then return here.dropLast
  else if name ∈ entries then return here ++ [name]
  else throw .notFound

/-- The path that names lead to. -/
def walk (disk : Disk) (here : List String) (names : List String) :
    Except FileFault (List String) :=
  names.foldlM disk.step here

/-- What a typed path leads to. -/
def find (disk : Disk) (path : String) : Except FileFault FileTree := do
  FileTree.at? (← disk.walk (disk.start path) (namesOf path)) disk.root

/-! ## Reading -/

/-- The content of a file. -/
def read (disk : Disk) (path : String) : Except FileFault String := do
  (← disk.find path).content?

/-- The names in a directory. -/
def list (disk : Disk) (path : String) : Except FileFault (List String) := do
  (← disk.find path).names?

/-- Whether there is something at a path. That nothing is found is an answer, other faults are
not. -/
def doesExist (disk : Disk) (path : String) : Except FileFault Bool :=
  match disk.find path with
  | .ok _ => .ok true
  | .error .notFound => .ok false
  | .error cause => .error cause

/-! ## Writing -/

/-- The disk with a content in a file, which is created unless it exists. -/
def write (disk : Disk) (path content : String) : Except FileFault Disk := do
  let names := namesOf path
  -- Slashes at the end of a path give empty names, and ask for a directory.
  let leading := (names.reverse.dropWhile (· = "")).reverse
  match leading.reverse with
  | [] => throw .isADirectory
  | last :: before =>
    if last = "." ∨ last = ".." then
      let _ ← (← disk.find path).names?
      throw .isADirectory
    else
      let directory ← disk.walk (disk.start path) before.reverse
      let _ ← (← FileTree.at? directory disk.root).names?
      if names.length ≠ leading.length then throw .isADirectory
      else return { disk with root := ← FileTree.write content (directory ++ [last]) disk.root }

end Disk

end Pipeline
