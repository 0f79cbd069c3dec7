/-
Drafts: workflows and tasks while they are put together.

A draft of a workflow gathers metadata, templates and the rest in any order, and
is finished once: finishing keeps the first template of every name. A draft of a
task is finished when it has a name and a template.
-/
import Pipeline.Manifest.Basic
import Pipeline.Text.Label

set_option autoImplicit false

namespace Pipeline.Manifest

/-! ## Workflows -/

/-- The version of the resource format. -/
def apiVersion : String := "argoproj.io/v1alpha1"

/-- The kind of the resource. -/
def workflowKind : String := "Workflow"

/-- The length that the cluster leaves for the given part of a generated name. -/
def generateNameLimit : Nat := 58

/-- A workflow that is being put together. -/
structure WorkflowDraft where
  metadata : Metadata
  spec : Spec

namespace WorkflowDraft

/-- A workflow that runs a template and has nothing else yet. -/
def running (entrypoint : String) : WorkflowDraft :=
  ⟨.empty, ⟨entrypoint, .empty, [], [], none⟩⟩

def inNamespace (draft : WorkflowDraft) (nameSpace : String) : WorkflowDraft :=
  { draft with metadata := { draft.metadata with nameSpace := some nameSpace } }

/-- Lets the cluster generate a name that begins with the label of a name. -/
def generateName (draft : WorkflowDraft) (name : String) : WorkflowDraft :=
  let generated := Label.ofName generateNameLimit name ++ "-"
  { draft with metadata := { draft.metadata with generateName := some generated } }

/-- Adds labels, each in place of an earlier one of its key. -/
def addLabels (draft : WorkflowDraft) (labels : List (String × String)) : WorkflowDraft :=
  { draft with metadata := { draft.metadata with labels := draft.metadata.labels.insertAll labels } }

/-- Adds annotations, each in place of an earlier one of its key. -/
def addAnnotations (draft : WorkflowDraft) (annotations : List (String × String)) :
    WorkflowDraft :=
  { draft with
    metadata :=
      { draft.metadata with annotations := draft.metadata.annotations.insertAll annotations } }

def addLabel (draft : WorkflowDraft) (key value : String) : WorkflowDraft :=
  draft.addLabels [(key, value)]

def annotate (draft : WorkflowDraft) (key value : String) : WorkflowDraft :=
  draft.addAnnotations [(key, value)]

def runAs (draft : WorkflowDraft) (serviceAccount : String) : WorkflowDraft :=
  { draft with spec := { draft.spec with serviceAccount := some serviceAccount } }

def withArguments (draft : WorkflowDraft) (arguments : Arguments) : WorkflowDraft :=
  { draft with spec := { draft.spec with arguments } }

def withVolumes (draft : WorkflowDraft) (volumes : List Volume) : WorkflowDraft :=
  { draft with spec := { draft.spec with volumes } }

def withTemplates (draft : WorkflowDraft) (templates : List Template) : WorkflowDraft :=
  { draft with spec := { draft.spec with templates } }

/-- The workflow, with the first template of every name. -/
def finish (draft : WorkflowDraft) : Workflow where
  apiVersion := apiVersion
  kind := workflowKind
  metadata := draft.metadata
  spec := { draft.spec with templates := Template.distinct draft.spec.templates }

end WorkflowDraft

/-! ## Tasks -/

/-- A task that is being put together. -/
structure TaskDraft where
  name : Option String
  template : Option String
  dependencies : List String
  arguments : Arguments
  runsWhen : Option String
  withParam : Option String

/-- A part without which a task cannot be finished. -/
inductive MissingPart where
  | name
  | template
  deriving DecidableEq

def MissingPart.message : MissingPart → String
  | .name => "\x60name\x60 must be initialized"
  | .template => "\x60template\x60 must be initialized"

namespace TaskDraft

/-- A task of which nothing is known. -/
def empty : TaskDraft := ⟨none, none, [], .empty, none, none⟩

/-- The task, when it has a name and a template. -/
def finish (draft : TaskDraft) : Except MissingPart Task :=
  match draft.name, draft.template with
  | none, _ => .error .name
  | _, none => .error .template
  | some name, some template =>
    .ok ⟨name, template, draft.dependencies, draft.arguments, draft.runsWhen, draft.withParam⟩

end TaskDraft

end Pipeline.Manifest
