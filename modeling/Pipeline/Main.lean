/-
The program: it gathers what a command needs to know about the world, lets the
command make its text, and delivers the text.

A command is a function of a disk. The disk it is given here holds what the
command may ask for: the job, and the documents in the directory of components.
-/
import Pipeline.Command.Run

set_option autoImplicit false

namespace Pipeline.Program

/-- How the program is called. -/
def usage : String :=
  "Usage: brickyard [--log-json] <COMMAND>\n\n" ++
  "Commands:\n" ++
  "  transpile    Dereferences and transpiles a job into a workflow\n" ++
  "  dereference  Prints a job with every component reference inlined\n" ++
  "  schema       Prints the JSON Schema of a document type\n" ++
  "  help         Prints this message\n\n" ++
  "Options:\n" ++
  "  --job <JOB>  --components <COMPONENTS>  -o, --output <OUTPUT>  --pretty\n" ++
  "  --namespace <NAMESPACE>  --service-account <ACCOUNT>  --artifact-root <ROOT>"

def versionText : String := "brickyard 0.1.0"

/-- The variables of the environment that the program knows. -/
def environmentNames : List String :=
  ["BRICKYARD_LOG_JSON", "BRICKYARD_COMPONENTS", "BRICKYARD_NAMESPACE",
   "BRICKYARD_SERVICE_ACCOUNT", "BRICKYARD_ARTIFACT_ROOT"]

/-- The values of the variables. -/
def environment : IO (KeyMap String) := do
  let values ← environmentNames.filterMapM fun name => do
    return (← IO.getEnv name).map (Prod.mk name)
  return .ofList values

/-! ## The disk -/

/-- The names in a directory, if there is one at a path. -/
def names? (path : String) : IO (Option (List String)) := do
  try
    let entries ← ((← IO.currentDir) / path).readDir
    return some (entries.toList.map (·.fileName))
  catch _ => return none

/-- The content of a file, if there is one at a path. A content that is no text is empty. -/
def content? (path : String) : IO (Option String) := do
  try
    let bytes ← IO.FS.readBinFile path
    return some ((String.fromUTF8? bytes).getD "")
  catch _ => return none

/-- The path that names lead to. -/
def pathOf (names : List String) : String := "/" ++ "/".intercalate names

/-- The names without stays and steps upwards. -/
def straighten (names : List String) : List String :=
  names.foldl (fun kept name =>
    if Disk.isStay name then kept else if name = ".." then kept.dropLast else kept ++ [name]) []

/-- A tree in which the file or the bare directory at a path is filled in. -/
def copyOne (tree : FileTree) (names : List String) : IO FileTree := do
  if (← names? (pathOf names)).isSome then return tree.withDirectory names
  else
    match ← content? (pathOf names) with
    | some content => return tree.withFile names content
    | none => return tree

/-- A tree in which everything on the way to a path is filled in. -/
def copyWay (tree : FileTree) (names : List String) : IO FileTree :=
  (List.range (names.length + 1)).foldlM (fun tree count => copyOne tree (names.take count)) tree

/-- A tree in which a directory and the directories in it are filled in. -/
def copyDirectory (tree : FileTree) (names : List String) : IO FileTree := do
  let mut tree ← copyWay tree names
  for entry in (← names? (pathOf names)).getD [] do
    let inner := names ++ [entry]
    tree ← copyOne tree inner
    for name in (← names? (pathOf inner)).getD [] do
      tree ← copyOne tree (inner ++ [name])
  return tree

/-- The disk with what a command may ask for. -/
def diskFor (source : Option JobSource) : IO Disk := do
  let home := straighten (Disk.namesOf (toString (← IO.currentDir)))
  let bare : Disk := ⟨FileTree.empty.withDirectory home, home⟩
  let placed (path : String) := straighten (bare.start path ++ Disk.namesOf path)
  match source with
  | none => return bare
  | some source =>
    let tree ← copyWay bare.root (placed source.job)
    match source.components with
    | none => return ⟨tree, home⟩
    | some root => return ⟨← copyDirectory tree (placed root), home⟩

/-- The source of a command that has one. -/
def source? : Command → Option JobSource
  | .transpile source .. | .dereference source _ => some source
  | .schema .. => none

/-! ## Running -/

/-- Reports why there is no outcome. -/
def report (message : String) : IO UInt32 := do
  IO.eprintln s!"Error: {message}"
  return 1

/-- Delivers a text to where the command wants it. -/
def deliver (output : OutputTarget) (text : String) : IO UInt32 := do
  match output.file with
  | none =>
    IO.print text
    return 0
  | some path =>
    try
      IO.FS.writeFile path text
      return 0
    catch error => report s!"failed to write {path}: {error}"

/-- Runs the program. -/
def run (words : List String) : IO UInt32 := do
  let environment ← environment
  match Invocation.ofWords environment.get? words with
  | .error .usage =>
    IO.eprintln usage
    return 2
  | .error .help =>
    IO.println usage
    return 0
  | .error .version =>
    IO.println versionText
    return 0
  | .ok invocation =>
    let command := invocation.command
    let disk ← diskFor (source? command)
    match command.text disk with
    | .error cause => report cause.message
    | .ok text => deliver command.output text

end Pipeline.Program

def main (words : List String) : IO UInt32 := Pipeline.Program.run words
