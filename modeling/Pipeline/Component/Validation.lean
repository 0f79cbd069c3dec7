/-
Validation: what every component of a tree must satisfy by itself.

A component has an identifier and no two inputs, nor two outputs, of one name.
What its implementation connects must exist, and the edges of a graph must not
lead in a circle. The tree is valid when each component in it is; references are
skipped, as what they stand for is not there yet.

Circles are found by taking away, again and again, the nodes that no remaining
node has an edge into. In a graph without circles this ends with nothing; the
nodes of a circle hold one another in place for ever. Each round but the last
takes away at least one node, so there are at most as many rounds as nodes.
-/
import Pipeline.Component.Basic
import Pipeline.Located

set_option autoImplicit false

namespace Pipeline

/-! ## Faults -/

/-- What can be wrong with a component. -/
inductive ValidationFault where
  | nilIdentifier (name : String)
  | duplicatePort (component : ComponentId) (direction : Direction) (port : String)
  | duplicateNode (component : ComponentId) (node : String)
  | unknownNode (component : ComponentId) (node : String)
  | cycle (component : ComponentId)
  deriving DecidableEq

namespace ValidationFault

def message : ValidationFault → String
  | .nilIdentifier name => s!"component '{name}' has a nil identifier"
  | .duplicatePort component direction port =>
    s!"component {component} declares {direction} port '{port}' more than once"
  | .duplicateNode component node =>
    s!"graph {component} contains node '{node}' more than once"
  | .unknownNode component node => s!"graph {component} references unknown node '{node}'"
  | .cycle component => s!"graph {component} contains a cycle"

end ValidationFault

/-- A fault, and the nodes around the component that has it. -/
abbrev ValidationError := Located String ValidationFault

/-- How messages name the place of an error in a tree. -/
def nodePlace (id : String) : String := s!"in node '{id}'"

def ValidationError.message (error : ValidationError) : String :=
  Located.message nodePlace ValidationFault.message error

/-! ## Checks of one component -/

/-- The first name that stands in the list, or among those seen before it, once more. -/
def firstRepeated? (seen : List String) : List String → Option String
  | [] => none
  | name :: names => if name ∈ seen then some name else firstRepeated? (name :: seen) names

namespace Graph

/-- The nodes that the connections of a graph name: both ends of each edge, then the ends of the
mappings that lie inside. -/
def endpoints (graph : Graph) : List String :=
  graph.edges.flatMap (fun edge => [edge.source.node, edge.target.node]) ++
    graph.inputMappings.map (·.target.node) ++ graph.outputMappings.map (·.source.node)

/-- The nodes that are left after so many rounds of taking away those that no remaining node has an
edge into. -/
def peel (edges : List Edge) : Nat → List String → List String
  | 0, rest => rest
  | rounds + 1, rest =>
    peel edges rounds <|
      rest.filter fun id => edges.any fun edge => edge.target.node = id && edge.source.node ∈ rest

/-- No node reaches itself along edges. -/
def isAcyclic (graph : Graph) : Bool :=
  (peel graph.edges graph.nodes.length (graph.nodes.map (·.id))).isEmpty

/-- The identifiers of nodes are distinct, every connection ends at nodes of the graph, and the
edges do not lead in a circle. -/
def validateStructure (graph : Graph) (component : ComponentId) : Except ValidationFault Unit := do
  if let some node := firstRepeated? [] (graph.nodes.map (·.id)) then
    throw (.duplicateNode component node)
  if let some node := graph.endpoints.find? fun id => !graph.nodes.any (·.id = id) then
    throw (.unknownNode component node)
  -- By now edges join nodes of the graph, and each node is there once.
  if !graph.isAcyclic then
    throw (.cycle component)

end Graph

namespace Implementation

/-- The ends of the mappings of a map or conditional that lie inside. -/
def mappedNodes (inputs : List InputMapping) (outputs : List OutputMapping) : List String :=
  inputs.map (·.target.node) ++ outputs.map (·.source.node)

/-- The connections of an implementation end at its own nodes. -/
def validateStructure (implementation : Implementation) (component : ComponentId) :
    Except ValidationFault Unit :=
  match implementation with
  | .graph block => block.validateStructure component
  | .conditional block =>
    match (mappedNodes block.inputMappings block.outputMappings).find?
        fun id => !block.isBranch id with
    | some node => throw (.unknownNode component node)
    | none => return
  | .map block =>
    match (mappedNodes block.inputMappings block.outputMappings).find?
        fun id => id ≠ block.node.id with
    | some node => throw (.unknownNode component node)
    | none => return
  | .brick _ | .any => return

end Implementation

namespace Component

/-- The ports of one direction have distinct names. -/
def validatePorts (id : ComponentId) (direction : Direction) (ports : List Port) :
    Except ValidationFault Unit :=
  match firstRepeated? [] (ports.map (·.name)) with
  | some port => throw (.duplicatePort id direction port)
  | none => return

/-- The checks of a component apart from those inside it. -/
def validateSelf (component : Component) : Except ValidationFault Unit := do
  if component.id.isNil then throw (.nilIdentifier component.name)
  validatePorts component.id .input component.inputs
  validatePorts component.id .output component.outputs
  component.implementation.validateStructure component.id

end Component

/-! ## Checks of a tree -/

mutual

/-- The component and every inline component below it pass their checks; the first fault in
pre-order counts. -/
def Component.validate : Component → Except ValidationError Unit
  | component@⟨_, _, _, _, _, _, _, _, .brick _⟩ => located component.validateSelf
  | component@⟨_, _, _, _, _, _, _, _, .any⟩ => located component.validateSelf
  | component@⟨_, _, _, _, _, _, _, _, .graph ⟨nodes, _, _, _⟩⟩ => do
    located component.validateSelf
    Node.validateAll nodes
  | component@⟨_, _, _, _, _, _, _, _, .map ⟨node, _, _⟩⟩ => do
    located component.validateSelf
    node.validate
  | component@⟨_, _, _, _, _, _, _, _, .conditional ⟨nodeTrue, none, _, _, _⟩⟩ => do
    located component.validateSelf
    nodeTrue.validate
  | component@⟨_, _, _, _, _, _, _, _, .conditional ⟨nodeTrue, some nodeFalse, _, _, _⟩⟩ => do
    located component.validateSelf
    nodeTrue.validate
    nodeFalse.validate
termination_by structural component => component

/-- The component at a node, if it is inline, passes its checks. -/
def Node.validate : Node → Except ValidationError Unit
  | ⟨id, .inline component⟩ => inside id component.validate
  | ⟨_, .latest _⟩ | ⟨_, .pinned _ _⟩ => return
termination_by structural node => node

def Node.validateAll : List Node → Except ValidationError Unit
  | [] => return
  | node :: nodes => do
    node.validate
    Node.validateAll nodes
termination_by structural nodes => nodes

end

/-- A component is checked before its children, and those in order. -/
theorem Component.validate_eq (component : Component) :
    component.validate =
      (located component.validateSelf >>= fun _ => Node.validateAll component.children) := by
  obtain ⟨id, name, description, modifier, timestamp, version, inputs, outputs, implementation⟩ :=
    component
  cases implementation with
  | brick _ => simp [validate, children, Implementation.children, Node.validateAll]
  | any => simp [validate, children, Implementation.children, Node.validateAll]
  | graph block => obtain ⟨_, _, _, _⟩ := block; simp [validate, children, Implementation.children]
  | map block =>
    obtain ⟨_, _, _⟩ := block
    simp [validate, children, Implementation.children, Node.validateAll]
  | conditional block =>
    obtain ⟨_, nodeFalse, _, _, _⟩ := block
    cases nodeFalse <;>
      simp [validate, children, Implementation.children, Conditional.branches, Node.validateAll]

end Pipeline
