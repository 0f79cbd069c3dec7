/-
A directory of documents as a registry.

The component of an identifier stands in a document that is named by the
identifier, or in a directory of that name, in documents that are numbered by
versions. A request for one version reads the numbered document. A request for
the latest version prefers the document that is named by the identifier, and
else reads the numbered one with the greatest number. Whatever is read has to
declare the identifier that was asked for.
-/
import Pipeline.Component.Document
import Pipeline.Files.Disk
import Pipeline.Json.Reader
import Pipeline.Number.Numeral
import Pipeline.Registry.Basic

set_option autoImplicit false

namespace Pipeline

/-- A directory of documents, by its path. -/
structure ComponentDirectory where
  root : String
  deriving DecidableEq

/-- Why a directory does not answer a request. -/
inductive DirectoryFault where
  | missing (request : Request) (root : String)
  | unreadable (path : String) (cause : FileFault)
  | malformed (path : String)
  | mismatch (path : String) (found expected : ComponentId)
  deriving DecidableEq

def DirectoryFault.message : DirectoryFault → String
  | .missing request root => s!"{request} not found under {root}"
  | .unreadable path cause => s!"failed to read {path}: {cause.message}"
  | .malformed path => s!"failed to parse {path}: <json>"
  | .mismatch path found expected => s!"{path} declares component {found}, expected {expected}"

namespace ComponentDirectory

/-! ## Paths -/

/-- The path of an entry of a directory. -/
def below (directory name : String) : String :=
  if directory.endsWith "/" then directory ++ name else directory ++ "/" ++ name

/-- The ending of the names of documents. -/
def ending : String := ".json"

/-- The document that is named by an identifier. -/
def flatPath (directory : ComponentDirectory) (id : ComponentId) : String :=
  below directory.root (id.text ++ ending)

/-- The directory of the numbered documents of an identifier. -/
def versionsPath (directory : ComponentDirectory) (id : ComponentId) : String :=
  below directory.root id.text

/-- The numbered document of a version. -/
def pinnedPath (directory : ComponentDirectory) (id : ComponentId) (version : UInt64) : String :=
  below (directory.versionsPath id) (toString version ++ ending)

/-- The version in the name of a numbered document. -/
def versionOf? (name : String) : Option Nat := do
  let stem ← name.dropSuffix? ending
  let version ← Numeral.natural? stem.toString
  if version < UInt64.size then some version else none

/-! ## Finding documents -/

/-- Work on a disk, with the path at which it fails. -/
def reading {α : Type} (path : String) (work : Except FileFault α) : Except DirectoryFault α :=
  work.mapError (.unreadable path)

/-- The one of two numbered documents with the greater version, the first when they are equal. -/
def newer (best : Option (Nat × String)) (name : String) : Option (Nat × String) :=
  match versionOf? name, best with
  | none, _ => best
  | some version, none => some (version, name)
  | some version, some (other, kept) =>
    if other < version then some (version, name) else some (other, kept)

/-- The numbered document with the greatest version. -/
def latestPath? (directory : ComponentDirectory) (disk : Disk) (id : ComponentId) :
    Except DirectoryFault (Option String) :=
  let versions := directory.versionsPath id
  match disk.list versions with
  | .ok names => .ok ((names.foldl newer none).map fun best => below versions best.2)
  | .error .notFound => .ok none
  | .error cause => .error (.unreadable versions cause)

/-- The document that answers a request. -/
def path? (directory : ComponentDirectory) (disk : Disk) :
    Request → Except DirectoryFault (Option String)
  | .latest id => do
    -- A document that carries no number is the latest by definition.
    let flat := directory.flatPath id
    if ← reading flat (disk.doesExist flat) then return some flat
    else directory.latestPath? disk id
  | .pinned id version => do
    let path := directory.pinnedPath id version
    return if ← reading path (disk.doesExist path) then some path else none

/-! ## Answering -/

/-- The component in a document, which has to declare an identifier. -/
def load (disk : Disk) (expected : ComponentId) (path : String) :
    Except DirectoryFault Component := do
  let text ← reading path (disk.read path)
  match (Json.parse? text).bind Component.ofJson? with
  | none => throw (.malformed path)
  | some component =>
    if component.id = expected then return component
    else throw (.mismatch path component.id expected)

/-- The answers of a directory. -/
def lookup (directory : ComponentDirectory) (disk : Disk) : Lookup DirectoryFault := fun request =>
  do
    match ← directory.path? disk request with
    | none => throw (.missing request directory.root)
    | some path => load disk request.id path

end ComponentDirectory

end Pipeline
