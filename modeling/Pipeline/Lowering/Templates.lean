/-
Templates: a tree of components, lowered to the templates of a manifest.

Every component becomes one template, named by the identifier of the component. A
brick becomes a container. A graph becomes one task for each node, a map one task
that fans out, and a conditional one guarded task for each branch. The templates
of the children follow that of their parent, each child being lowered under the
scopes that the parent hands down to it.

A component that stands at several places is lowered once for every place.
`Component.allTemplates` keeps all of these templates; `Component.templates` keeps
the first of every name.
-/
import Pipeline.Lowering.Container
import Pipeline.Lowering.Settings
import Pipeline.Lowering.TaskWiring
import Pipeline.Lowering.VolumeClaim

set_option autoImplicit false

namespace Pipeline

open Manifest (Task Template)

/-! ## Scopes of children -/

/-- What is bound to the inputs of a component. -/
structure Scopes where
  secrets : SecretScope
  volumes : VolumeScope
  deriving DecidableEq

/-- Nothing is bound. -/
def Scopes.empty : Scopes := ⟨.empty, .empty⟩

/-- What a composite hands down to a child, by the bindings of a claimant. -/
def Graph.narrow (wiring : Graph) (scopes : Scopes) (claimant : String) (child : Component) :
    Lowered Scopes := do
  let secrets := scopes.secrets.narrow (InputMapping.bindings wiring.inputMappings claimant)
  let volumes ← wiring.narrowVolumes claimant child scopes.volumes
  return ⟨secrets, volumes⟩

/-! ## Graphs -/

namespace Graph

/-- The task of a node. -/
def task (graph : Graph) (component : Component) (node : Node) : Lowered Task := do
  let child ← node.component
  let called := { Task.calling node.id child.id.text with dependencies := graph.dependencies node.id }
  let mappings := graph.inputMappings.filter (·.target.node = node.id)
  let mapped ← Task.wireInputs component child called mappings
  Task.wireEdges graph child mapped (graph.incoming node.id)

/-- The template of a graph. -/
def template (graph : Graph) (component : Component) : Lowered Template := do
  let tasks ← graph.nodes.mapM (graph.task component)
  let outputs ← component.connectOutputs
    (fun mapping => .ofTask mapping.source.node mapping.source.port) graph.outputMappings
  return .ofTasks component.id.text (component.inputInterface none) outputs tasks

end Graph

/-! ## Maps -/

namespace MapBlock

/-- The task of a map. -/
def task (map : MapBlock) (component : Component) (settings : Settings) : Lowered Task := do
  let child ← map.node.component
  Task.wireInputs component child (.calling settings.mapTaskName child.id.text) map.inputMappings

/-- The template of a map. -/
def template (map : MapBlock) (component : Component) (settings : Settings) :
    Lowered Template := do
  let task ← map.task component settings
  let outputs ← component.connectOutputs
    (fun mapping => .ofTask settings.mapTaskName mapping.source.port) map.outputMappings
  return .ofTasks component.id.text (component.inputInterface none) outputs [task]

end MapBlock

/-! ## Conditionals -/

/-- The same ports, in whatever order and number. -/
def Port.sameSet (left right : List Port) : Bool :=
  left.all (· ∈ right) && right.all (· ∈ left)

namespace Conditional

/-- Every mapping has to go through the first branch. A mapping from the second branch is accepted
beside one from the first branch to the same output. -/
def checkMappings (conditional : Conditional) : Lowered Unit :=
  let nodeTrue := conditional.nodeTrue.id
  match conditional.inputMappings.find? (·.target.node ≠ nodeTrue) with
  | some mapping => fault (.falseBranchMapping nodeTrue mapping.source .input)
  | none =>
    match conditional.outputMappings.find? fun mapping =>
        mapping.source.node ≠ nodeTrue &&
          !conditional.outputMappingsTrue.any (·.target = mapping.target) with
    | some mapping => fault (.falseBranchMapping nodeTrue mapping.target .output)
    | none => .ok ()

/-- Both branches have to have the same ports. -/
def checkSymmetry (conditional : Conditional) (nodeFalse : Node) (whenTrue whenFalse : Component) :
    Lowered Unit :=
  if !Port.sameSet whenTrue.inputs whenFalse.inputs then
    fault (.branchMismatch conditional.nodeTrue.id nodeFalse.id .input)
  else if !Port.sameSet whenTrue.outputs whenFalse.outputs then
    fault (.branchMismatch conditional.nodeTrue.id nodeFalse.id .output)
  else .ok ()

/-- The component of the second branch, whose ports have to be those of the first. -/
def componentFalse (conditional : Conditional) (whenTrue : Component) :
    Lowered (Option Component) :=
  match conditional.nodeFalse with
  | none => .ok none
  | some nodeFalse => do
    let whenFalse ← nodeFalse.component
    conditional.checkSymmetry nodeFalse whenTrue whenFalse
    return some whenFalse

/-- The tasks of the branches, which differ in name, template and guard only. -/
def tasks (settings : Settings) (guardText : String) (wired : Task)
    (whenFalse : Option Component) : List Task :=
  { wired with runsWhen := some guardText } ::
    (whenFalse.map fun component =>
      { wired with
        name := settings.falseTaskName
        template := component.id.text
        runsWhen := some (Condition.negate guardText) }).toList

/-- The template of a conditional. -/
def template (conditional : Conditional) (component : Component) (settings : Settings) :
    Lowered Template := do
  conditional.checkMappings
  let whenTrue ← conditional.nodeTrue.component
  let whenFalse ← conditional.componentFalse whenTrue
  let guardText ← conditional.condition.guardText component.inputs
  let mappings := conditional.inputMappings.filter (·.target.node = conditional.nodeTrue.id)
  let wired ← Task.wireInputs component whenTrue
    (.calling settings.trueTaskName whenTrue.id.text) mappings
  let outputs ← conditional.outputs component settings.trueTaskName settings.falseTaskName
  return .ofTasks component.id.text (component.inputInterface none) outputs
    (tasks settings guardText wired whenFalse)

end Conditional

/-! ## Components -/

namespace Component

/-- The template of a component itself. -/
def template (component : Component) (settings : Settings) (scopes : Scopes) : Lowered Template :=
  match component.implementation with
  | .brick block => block.template component scopes.secrets scopes.volumes settings.artifactRoot
  | .graph block => block.template component
  | .map block => block.template component settings
  | .conditional block => block.template component settings
  | .any => fault (.unsupportedImplementation component.implementation.kind)

end Component

mutual

/-- The templates of a component and of everything below it, in depth first order. -/
def Component.allTemplates (settings : Settings) :
    Component → Scopes → Lowered (List Template)
  | component@⟨_, _, _, _, _, _, _, _, .brick _⟩, scopes => do
    let own ← component.template settings scopes
    return [own]
  | component@⟨_, _, _, _, _, _, _, _, .any⟩, scopes => do
    let own ← component.template settings scopes
    return [own]
  | component@⟨_, _, _, _, _, _, _, _, .graph ⟨nodes, edges, inputMappings, outputMappings⟩⟩,
      scopes => do
    let own ← component.template settings scopes
    let below ← Node.eachTemplates settings nodes
      (Graph.narrow ⟨nodes, edges, inputMappings, outputMappings⟩ scopes)
    return own :: below
  | component@⟨_, _, _, _, _, _, _, _, .map ⟨node, inputMappings, outputMappings⟩⟩, scopes => do
    let own ← component.template settings scopes
    let below ← node.templates settings
      (Graph.narrow ⟨[node], [], inputMappings, outputMappings⟩ scopes node.id)
    return own :: below
  | component@⟨_, _, _, _, _, _, _, _,
      .conditional ⟨nodeTrue, none, _, inputMappings, outputMappings⟩⟩, scopes => do
    let own ← component.template settings scopes
    let below ← nodeTrue.templates settings
      (Graph.narrow ⟨[nodeTrue], [], inputMappings, outputMappings⟩ scopes nodeTrue.id)
    return own :: below
  | component@⟨_, _, _, _, _, _, _, _,
      .conditional ⟨nodeTrue, some nodeFalse, _, inputMappings, outputMappings⟩⟩, scopes => do
    let own ← component.template settings scopes
    -- The first branch is the claimant for both.
    let narrow := Graph.narrow ⟨[nodeTrue, nodeFalse], [], inputMappings, outputMappings⟩ scopes
      nodeTrue.id
    let belowTrue ← nodeTrue.templates settings narrow
    let belowFalse ← nodeFalse.templates settings narrow
    return own :: (belowTrue ++ belowFalse)
termination_by structural component => component

/-- The templates below a node, under the scopes that are handed down to its component. -/
def Node.templates (settings : Settings) :
    Node → (Component → Lowered Scopes) → Lowered (List Template)
  | ⟨_, .inline component⟩, narrow => do
    let scopes ← narrow component
    inside component.id (component.allTemplates settings scopes)
  | ⟨id, .latest stored⟩, _ => fault (.notDereferenced id (NodeRef.latest stored).variant)
  | ⟨id, .pinned stored version⟩, _ =>
    fault (.notDereferenced id (NodeRef.pinned stored version).variant)
termination_by structural node => node

/-- The templates below nodes, each the claimant of its own bindings. -/
def Node.eachTemplates (settings : Settings) :
    List Node → (String → Component → Lowered Scopes) → Lowered (List Template)
  | [], _ => .ok []
  | node :: nodes, narrow => do
    let first ← node.templates settings (narrow node.id)
    let rest ← Node.eachTemplates settings nodes narrow
    return first ++ rest
termination_by structural nodes => nodes

end

namespace Component

/-- A valid tree is lowered; the errors of the validation have no component around them. -/
def templatesWithRepeats (component : Component) (settings : Settings) (scopes : Scopes) :
    Lowered (List Template) := do
  component.validate.mapError fun error => .here (.invalid error)
  inside component.id (component.allTemplates settings scopes)

/-- The templates of a tree, the first being that of its root, and each name occurring once. -/
def templates (component : Component) (settings : Settings) (scopes : Scopes) :
    Lowered (List Template) :=
  (component.templatesWithRepeats settings scopes).map Template.distinct

end Component

end Pipeline
