/-
File trees: what a program sees of files and directories.

A path is a list of names from the root of a tree. Nothing links to anything
else, so every file has one path and looking a path up follows the tree.
-/
import Pipeline.KeyMap

set_option autoImplicit false

namespace Pipeline

/-- A file, or a directory with its entries in order of their names. -/
inductive FileTree where
  | file (content : String)
  | directory (entries : List (String × FileTree))

/-- Why a file cannot be read, written or found. -/
inductive FileFault where
  | notFound
  | isADirectory
  | notADirectory
  deriving DecidableEq

/-- Reports name a fault of the file system by its kind alone. -/
def FileFault.message : FileFault → String
  | .notFound => "<io NotFound>"
  | .isADirectory => "<io IsADirectory>"
  | .notADirectory => "<io NotADirectory>"

namespace FileTree

/-- The directory without entries. -/
def empty : FileTree := .directory []

instance : Inhabited FileTree := ⟨empty⟩

/-! ## Looking up -/

/-- What is found at a path. -/
def at? : List String → FileTree → Except FileFault FileTree
  | [], tree => .ok tree
  | _ :: _, .file _ => .error .notADirectory
  | name :: names, .directory entries =>
    match Entries.get? name entries with
    | some tree => at? names tree
    | none => .error .notFound

/-- The content of a file. -/
def content? : FileTree → Except FileFault String
  | .file content => .ok content
  | .directory _ => .error .isADirectory

/-- The names in a directory. -/
def names? : FileTree → Except FileFault (List String)
  | .file _ => .error .notADirectory
  | .directory entries => .ok (entries.map Prod.fst)

/-! ## Changing -/

/-- The tree with a content in a file, which is created in a directory that exists. -/
def write (content : String) : List String → FileTree → Except FileFault FileTree
  | [], .file _ => .ok (.file content)
  | [], .directory _ => .error .isADirectory
  | _ :: _, .file _ => .error .notADirectory
  | [name], .directory entries =>
    match Entries.get? name entries with
    | some (.directory _) => .error .isADirectory
    | _ => .ok (.directory (Entries.insert name (.file content) entries))
  | name :: names, .directory entries =>
    match Entries.get? name entries with
    | none => .error .notFound
    | some tree =>
      (write content names tree).map fun changed =>
        .directory (Entries.insert name changed entries)

/-- The tree with a change at a path, where the directories on the way are created and a missing
place counts as an empty directory. -/
def grow (change : FileTree → FileTree) : List String → FileTree → FileTree
  | [], tree => change tree
  | name :: names, .directory entries =>
    .directory (Entries.insert name (grow change names ((Entries.get? name entries).getD empty))
      entries)
  | name :: names, .file _ => .directory [(name, grow change names empty)]

/-- The tree with a file, and the directories that lead to it. -/
def withFile (path : List String) (content : String) : FileTree → FileTree :=
  grow (fun _ => .file content) path

/-- The tree with a directory, and those that lead to it. -/
def withDirectory (path : List String) : FileTree → FileTree := grow id path

/-! ## Listing -/

mutual

/-- The paths and contents of all files. -/
def files : FileTree → List (List String × String)
  | .file content => [([], content)]
  | .directory entries => filesOf entries

def filesOf : List (String × FileTree) → List (List String × String)
  | [] => []
  | (name, tree) :: entries =>
    (tree.files.map fun (path, content) => (name :: path, content)) ++ filesOf entries

end

end FileTree

end Pipeline
