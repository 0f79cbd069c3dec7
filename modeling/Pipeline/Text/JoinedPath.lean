/-
Paths joined from fragments.

A fragment is a run of segments between slashes. Joining lines the segments of
all fragments up, with one slash between neighbours; empty fragments and double
slashes leave no trace. The result is absolute when the first fragment that is
not empty is.
-/

set_option autoImplicit false

namespace Pipeline.JoinedPath

/-- The non-empty segments of a fragment. -/
def segments (fragment : List Char) : List (List Char) :=
  (fragment.splitOn '/').filter (!·.isEmpty)

/-- The first fragment that is not empty begins with a slash. -/
def isAbsolute : List (List Char) → Bool
  | [] => false
  | [] :: fragments => isAbsolute fragments
  | (c :: _) :: _ => c = '/'

/-- The characters of the path that fragments join to. -/
def joinCharacters (fragments : List (List Char)) : List Char :=
  let path := ['/'].intercalate (fragments.flatMap segments)
  if isAbsolute fragments then '/' :: path else path

/-- The path that fragments join to. -/
def join (fragments : List String) : String :=
  String.ofList (joinCharacters (fragments.map String.toList))

end Pipeline.JoinedPath
