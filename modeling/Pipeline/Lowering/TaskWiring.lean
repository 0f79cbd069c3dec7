/-
Wiring: the arguments of tasks, and the sources of a composite's outputs.

A mapping or an edge becomes an argument of the task of the node at its end. The
type of the port at its beginning decides the form. Strings and artifacts are
passed on by placeholder. A list is not passed on: the task runs once for every
element and is given the current one, and since a task fans out over one list at
most, all lists that reach it have to be the same. Only the output of a composite
is an exception, since the composite has gathered the list itself. Volumes and
secrets are bound through scopes and give no argument.
-/
import Pipeline.Lowering.Guard
import Pipeline.Lowering.Interface

set_option autoImplicit false

namespace Pipeline

open Manifest (Arguments Artifact Parameter Task ValueSource)

/-! ## Arguments -/

namespace Manifest.Task

/-- The task is given a parameter. -/
def passParameter (task : Task) (target value : String) : Task :=
  { task with arguments := task.arguments.addParameter (.withValue target value) }

/-- The task is given an artifact. -/
def passArtifact (task : Task) (target reference : String) : Task :=
  { task with arguments := task.arguments.addArtifact (.ofReference target reference) }

/-- The task runs for every element of a list and is given the current one. -/
def fanOut (task : Task) (target items : String) : Lowered Task :=
  if task.withParam.any (· ≠ items) then fault (.conflictingFanOut task.name)
  else .ok { task.passParameter target Placeholder.item with withParam := some items }

/-- The task of a child is given what a mapping takes from an input of the parent. -/
def wireInput (parent child : Component) (task : Task) (mapping : InputMapping) :
    Lowered Task := do
  let outer ← parent.input mapping.source
  let inner ← inside child.id (child.input mapping.target.port)
  match outer.type with
  | .parameter => return task.passParameter inner.name (Placeholder.inputParameter outer.name)
  | .parameterArray => task.fanOut inner.name (Placeholder.inputParameter outer.name)
  | .artifact => return task.passArtifact inner.name (Placeholder.inputArtifact outer.name)
  | .volume | .envSecret => return task

/-- The task of a child is given what an edge takes from an output of a sibling. -/
def wireEdge (graph : Graph) (child : Component) (task : Task) (edge : Edge) : Lowered Task := do
  let sibling ← graph.component edge.source.node
  let output ← inside sibling.id (sibling.output edge.source.port)
  let inner ← inside child.id (child.input edge.target.port)
  let reference := Placeholder.taskParameter edge.source.node output.name
  match output.type, sibling.implementation with
  | .parameter, _ => return task.passParameter inner.name reference
  -- A brick puts out a list, a composite the text of the list that it gathered.
  | .parameterArray, .brick _ => task.fanOut inner.name reference
  | .parameterArray, _ => return task.passParameter inner.name reference
  | .artifact, _ =>
    return task.passArtifact inner.name (Placeholder.taskArtifact edge.source.node output.name)
  | .volume, _ => return task
  | .envSecret, _ =>
    fault (.unsupportedEdge edge.target.node edge.target.port output.type)

/-- The task of a child is given what mappings take from the inputs of the parent. -/
def wireInputs (parent child : Component) (task : Task) (mappings : List InputMapping) :
    Lowered Task :=
  mappings.foldlM (wireInput parent child) task

/-- The task of a child is given what edges take from the outputs of its siblings. -/
def wireEdges (graph : Graph) (child : Component) (task : Task) (edges : List Edge) :
    Lowered Task :=
  edges.foldlM (wireEdge graph child) task

end Manifest.Task

/-! ## Outputs -/

/-- The source of an output, as a parameter and as an artifact has it. -/
structure OutputSource where
  parameter : ValueSource
  artifact : Artifact → Artifact

namespace OutputSource

/-- The output of a task. -/
def ofTask (task port : String) : OutputSource where
  parameter := .ofParameter (Placeholder.taskParameter task port)
  artifact := fun artifact =>
    { artifact with reference := some (Placeholder.taskArtifact task port) }

/-- The output of one of two tasks, of which an expression tells which one runs. -/
def ofBranches (expression taskTrue portTrue taskFalse : String) (portFalse : Option String) :
    OutputSource where
  parameter := .ofExpression (Condition.select expression
    (Reference.taskParameter taskTrue portTrue) (portFalse.map (Reference.taskParameter taskFalse)))
  artifact := fun artifact =>
    { artifact with
      expression := some (Condition.select expression
        (Reference.taskArtifact taskTrue portTrue)
        (portFalse.map (Reference.taskArtifact taskFalse))) }

end OutputSource

namespace Component

/-- The output that a mapping names is given its source. -/
def connectOutput (component : Component) (source : OutputMapping → OutputSource)
    (outputs : Arguments) (mapping : OutputMapping) : Lowered Arguments := do
  let port ← component.output mapping.target
  match port.type with
  | .parameter | .parameterArray =>
    return outputs.modifyParameter port.name fun parameter =>
      { parameter with source := some (source mapping).parameter }
  | .artifact => return outputs.modifyArtifact port.name (source mapping).artifact
  | .volume => return outputs
  | .envSecret => fault (.unsupportedOutput port.name port.type)

/-- The outputs of a composite, with their sources. -/
def connectOutputs (component : Component) (source : OutputMapping → OutputSource)
    (mappings : List OutputMapping) : Lowered Arguments :=
  mappings.foldlM (component.connectOutput source) component.outputInterface

end Component

namespace Conditional

/-- The port of the second branch that an output is taken from, when there is a second branch: the
one that a mapping names, or else the one of the same name as in the first branch. -/
def portFalse (conditional : Conditional) (mapping : OutputMapping) : Option String :=
  conditional.nodeFalse.map fun node =>
    match conditional.outputMappings.find? fun other =>
        other.source.node = node.id ∧ other.target = mapping.target with
    | some other => other.source.port
    | none => mapping.source.port

/-- The output mappings of the first branch. -/
def outputMappingsTrue (conditional : Conditional) : List OutputMapping :=
  conditional.outputMappings.filter (·.source.node = conditional.nodeTrue.id)

/-- The outputs of a conditional, each from the branch that runs. -/
def outputs (conditional : Conditional) (component : Component) (taskTrue taskFalse : String) :
    Lowered Arguments :=
  if conditional.outputMappings.isEmpty then .ok component.outputInterface
  else do
    let expression ← conditional.condition.expressionText component.inputs
    component.connectOutputs
      (fun mapping => .ofBranches expression taskTrue mapping.source.port taskFalse
        (conditional.portFalse mapping))
      conditional.outputMappingsTrue

end Conditional

end Pipeline
