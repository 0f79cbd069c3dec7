/-
Settings: what can be chosen about the manifests that jobs become.

Settings are drafted choice by choice and finished once. A task of a conditional
is found by its name, so the two names have to differ, and no name may be empty.
-/
import Pipeline.Json.Record

set_option autoImplicit false

namespace Pipeline

/-- The choices about manifests. -/
structure Settings where
  /-- The directory of a container in which its input artifacts are placed. -/
  artifactRoot : String
  /-- The name of the task of a map. -/
  mapTaskName : String
  /-- The name of the task of a conditional that runs when the condition holds. -/
  trueTaskName : String
  /-- The name of the task of a conditional that runs when the condition does not hold. -/
  falseTaskName : String
  /-- The namespace, when it is not the workspace of the job. -/
  nameSpace : Option String
  serviceAccount : Option String
  /-- Labels besides those that every manifest carries. -/
  labels : KeyMap String
  /-- Annotations besides those that every manifest carries. -/
  annotations : KeyMap String
  deriving DecidableEq

namespace Settings

/-- The settings where nothing is chosen. -/
def default : Settings where
  artifactRoot := "/tmp/artifacts"
  mapTaskName := "map"
  trueTaskName := "when-true"
  falseTaskName := "when-false"
  nameSpace := none
  serviceAccount := none
  labels := .empty
  annotations := .empty

instance : Inhabited Settings := ⟨default⟩

end Settings

/-- Why choices do not fit together. -/
inductive SettingsFault where
  | emptyArtifactRoot
  | emptyTaskName
  | sameBranchNames
  deriving DecidableEq

def SettingsFault.message : SettingsFault → String
  | .emptyArtifactRoot => "artifact_root must not be empty"
  | .emptyTaskName => "task names must not be empty"
  | .sameBranchNames => "true_task_name and false_task_name must differ"

namespace Settings

/-- What is wrong with drafted settings, if anything is. -/
def fault? (draft : Settings) : Option SettingsFault :=
  if draft.artifactRoot.isEmpty then some .emptyArtifactRoot
  else if draft.mapTaskName.isEmpty || draft.trueTaskName.isEmpty || draft.falseTaskName.isEmpty then
    some .emptyTaskName
  else if draft.trueTaskName = draft.falseTaskName then some .sameBranchNames
  else none

/-- The settings, when the choices fit together. -/
def finish (draft : Settings) : Except SettingsFault Settings :=
  match draft.fault? with
  | some cause => .error cause
  | none => .ok draft

theorem default_finish : default.finish = .ok default := rfl

end Settings

end Pipeline
