/-
Jobs, lowered to manifests.

The root of a job has to be written out in place. The values of the job come
first, then the tree under the scopes that they bind, and last the metadata. The
identifier and the name of a job go into a label and an annotation, and have the
last word over those of the settings.
-/
import Pipeline.Lowering.Seed
import Pipeline.Manifest.Draft
import Pipeline.Registry.Resolution

set_option autoImplicit false

namespace Pipeline

open Manifest (Template Workflow WorkflowDraft)

/-- The label that carries the identifier of a job. -/
def workflowIdLabel : String := "brickyard.io/workflow-id"

/-- The annotation that carries the name of a job. -/
def workflowNameAnnotation : String := "brickyard.io/workflow-name"

/-- The root component of a job, which has to be inline. -/
def Job.root (job : Job) : Lowered Component :=
  Node.component ⟨rootNode, job.workflow.component⟩

/-- The draft of the manifest for a job, from what its values contribute and the templates of its
root. -/
def Job.draft (job : Job) (settings : Settings) (root : Component) (seed : Seed)
    (templates : List Template) : WorkflowDraft :=
  let draft := (WorkflowDraft.running root.id.text)
    |>.inNamespace (settings.nameSpace.getD job.workflow.workspace)
    |>.generateName job.workflow.name
    |>.addLabels settings.labels.entries
    |>.addLabel workflowIdLabel job.workflow.id.text
    |>.addAnnotations settings.annotations.entries
    |>.annotate workflowNameAnnotation job.workflow.name
    |>.withArguments seed.arguments
    |>.withVolumes seed.volumes
    |>.withTemplates templates
  match settings.serviceAccount with
  | some account => draft.runAs account
  | none => draft

/-- The manifest for a job. -/
def Job.lower (job : Job) (settings : Settings) : Lowered Workflow := do
  let root ← job.root
  let seed ← Seed.ofValues root job.inputs
  let templates ← root.templates settings seed.scopes
  return (job.draft settings root seed templates).finish

end Pipeline
