/-
Running commands: from a disk to a document, and from there to an outcome.

The document of a command is made before anything is written, so a command that
fails leaves the disk as it is. What is written is one document and a line end,
either to the standard output or to a file.
-/
import Pipeline.Command.Arguments
import Pipeline.Command.Schema
import Pipeline.Lowering.Workflow
import Pipeline.Registry.Directory

set_option autoImplicit false

namespace Pipeline

/-! ## Faults -/

/-- Why a reference of a job has no answer. -/
inductive SourceFault where
  /-- No directory of components is given. -/
  | notStored (cause : NotFound)
  | directory (cause : DirectoryFault)
  deriving DecidableEq

def SourceFault.message : SourceFault → String
  | .notStored cause => cause.message
  | .directory cause => cause.message

/-- Why a command has no outcome. -/
inductive CommandFault where
  | settings (cause : SettingsFault)
  | unreadableJob (path : String) (cause : FileFault)
  | malformedJob (path : String)
  | unresolved (error : ResolutionError SourceFault)
  | unlowered (workflow : String) (error : LoweringError)
  | unknownSchema (name : String)
  | unwritable (path : String) (cause : FileFault)
  deriving DecidableEq

def CommandFault.message : CommandFault → String
  | .settings cause => s!"invalid transpiler configuration: {cause.message}"
  | .unreadableJob path cause => s!"failed to read job {path}: {cause.message}"
  | .malformedJob path => s!"failed to parse job {path}: <json>"
  | .unresolved error =>
    let text := Located.message nodePlace (ResolutionFault.message SourceFault.message) error
    s!"failed to dereference job: {text}"
  | .unlowered workflow error => s!"failed to transpile workflow '{workflow}': {error.message}"
  | .unknownSchema name =>
    let known := ", ".intercalate (Schema.names.map fun name => "\"" ++ name ++ "\"")
    s!"unknown schema '{name}', expected one of [{known}]"
  | .unwritable path cause => s!"failed to write {path}: {cause.message}"

/-! ## Documents -/

namespace JobSource

/-- The answers to the references of a job. -/
def lookup (source : JobSource) (disk : Disk) : Lookup SourceFault := fun request =>
  match source.components with
  | some root => ((ComponentDirectory.mk root).lookup disk request).mapError .directory
  | none => (Registry.empty.lookup request).mapError .notStored

/-- The job as it is written. -/
def read (source : JobSource) (disk : Disk) : Except CommandFault Job :=
  match disk.read source.job with
  | .error cause => .error (.unreadableJob source.job cause)
  | .ok text =>
    match (Json.parse? text).bind Job.ofJson? with
    | some job => .ok job
    | none => .error (.malformedJob source.job)

/-- The job with every reference resolved. -/
def load (source : JobSource) (disk : Disk) : Except CommandFault Job := do
  let job ← source.read disk
  (job.dereference (source.lookup disk)).outcome.mapError .unresolved

end JobSource

namespace Command

/-- The document that a command makes. -/
def document (command : Command) (disk : Disk) : Except CommandFault Json :=
  match command with
  | .transpile source nameSpace serviceAccount artifactRoot _ => do
    let draft := { Settings.default with artifactRoot, nameSpace, serviceAccount }
    let settings ← draft.finish.mapError .settings
    let job ← source.load disk
    let workflow ← (job.lower settings).mapError (.unlowered job.workflow.name)
    return workflow.toJson
  | .dereference source _ => do
    let job ← source.load disk
    return job.toJson
  | .schema name _ =>
    match Schema.ofName? name with
    | some found => .ok found
    | none => .error (.unknownSchema name)

/-- Where the document of a command goes. -/
def output : Command → OutputTarget
  | .transpile _ _ _ _ output | .dereference _ output | .schema _ output => output

/-- The text of the document of a command. -/
def text (command : Command) (disk : Disk) : Except CommandFault String := do
  let document ← command.document disk
  let layout : Json.Layout := if command.output.isPretty then .pretty else .compact
  return document.text layout ++ "\n"

end Command

/-! ## Outcomes -/

/-- What a command leaves behind. -/
structure Outcome where
  standardOutput : String
  disk : Disk

/-- Runs a command. -/
def Command.run (command : Command) (disk : Disk) : Except CommandFault Outcome := do
  let text ← command.text disk
  match command.output.file with
  | none => return ⟨text, disk⟩
  | some path =>
    let disk ← (disk.write path text).mapError (.unwritable path)
    return ⟨"", disk⟩

end Pipeline
