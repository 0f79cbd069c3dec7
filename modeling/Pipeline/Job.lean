/-
Jobs: a workflow to run, and values for the inputs of its root component.
-/
import Pipeline.Component.Document

set_option autoImplicit false

namespace Pipeline

/-! ## Values -/

/-- The value that a job gives to an input. -/
inductive Payload where
  | text (value : String)
  | list (values : List String)
  deriving DecidableEq

namespace Payload

def toJson : Payload → Json
  | .text value => .string value
  | .list values => Json.ofStrings values

def ofJson? : Json → Option Payload
  | .string value => some (.text value)
  | .array items => (items.mapM Json.string?).map .list
  | _ => none

end Payload

/-- A value for an input of the root component. -/
structure InputValue where
  target : String
  payload : Payload
  deriving DecidableEq

namespace InputValue

def toJson (value : InputValue) : Json :=
  Json.record [Json.field "target" (.string value.target), Json.field "value" value.payload.toJson]

def ofJson? (document : Json) : Option InputValue :=
  match document.fields? ["target", "value"] with
  | some [target, payload] => do
    return { target := ← Json.required Json.string? target
             payload := ← Json.required Payload.ofJson? payload }
  | _ => none

end InputValue

/-! ## Jobs -/

/-- What a job runs: a root component under a name, in a workspace. -/
structure Submission where
  id : ComponentId
  name : String
  workspace : String
  component : NodeRef

namespace Submission

def toJson (submission : Submission) : Json :=
  Json.record
    [Json.field "id" submission.id.toJson, Json.field "name" (.string submission.name),
     Json.field "workspace" (.string submission.workspace),
     Json.field "component" submission.component.toJson]

def ofJson? (document : Json) : Option Submission :=
  match document.fields? ["id", "name", "workspace", "component"] with
  | some [id, name, workspace, component] => do
    return { id := ← Json.required ComponentId.ofJson? id
             name := ← Json.required Json.string? name
             workspace := ← Json.required Json.string? workspace
             component := ← Json.required NodeRef.ofJson? component }
  | _ => none

end Submission

/-- A submission with values for its inputs. -/
structure Job where
  workflow : Submission
  inputs : List InputValue

namespace Job

def toJson (job : Job) : Json :=
  Json.record
    [Json.field "workflow" job.workflow.toJson,
     Json.field "inputs" (.array (job.inputs.map InputValue.toJson))]

def ofJson? (document : Json) : Option Job :=
  match document.fields? ["workflow", "inputs"] with
  | some [workflow, inputs] => do
    return { workflow := ← Json.required Submission.ofJson? workflow
             inputs := ← Json.defaulted (Json.list? InputValue.ofJson?) [] inputs }
  | _ => none

end Job

end Pipeline
