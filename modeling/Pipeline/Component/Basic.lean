/-
Components: the trees that a pipeline is made of.

A component is a brick, which runs a container, or a composite: a graph of
nodes, a map of one node over a list, or a conditional with one or two branches.
A node holds its component inline or refers to a stored one by its identifier.
What a composite has to offer for its own treatment is the same in all three
cases, its *scope*: child nodes, edges between them, and mappings from and to
its own ports. Everything that walks the tree walks the children of scopes.

The types are mutually inductive, and functions on them recurse structurally
through component, node and list of nodes; the theorem `Component.sizeOf_child`
is the measure for everything that rather follows `children`.
-/
import Pipeline.ComponentId
import Pipeline.Instant
import Pipeline.Component.Brick
import Pipeline.Component.Condition
import Pipeline.Component.Wiring

set_option autoImplicit false

namespace Pipeline

mutual

/-- A unit of work with typed inputs and outputs. -/
structure Component where
  id : ComponentId
  name : String
  description : Option String
  modifier : Option String
  timestamp : Option Instant
  version : Option UInt64
  inputs : List Port
  outputs : List Port
  implementation : Implementation

/-- How a component does its work. -/
inductive Implementation where
  | brick (brick : Brick)
  | graph (graph : Graph)
  | map (map : MapBlock)
  | conditional (conditional : Conditional)
  /-- Unspecified. -/
  | any

/-- Nodes that run as their edges allow. -/
structure Graph where
  nodes : List Node
  edges : List Edge
  inputMappings : List InputMapping
  outputMappings : List OutputMapping

/-- One node that runs for every element of a list. -/
structure MapBlock where
  node : Node
  inputMappings : List InputMapping
  outputMappings : List OutputMapping

/-- A node that runs when a condition holds, and possibly one that runs when it does not. -/
structure Conditional where
  nodeTrue : Node
  nodeFalse : Option Node
  condition : Condition
  inputMappings : List InputMapping
  outputMappings : List OutputMapping

/-- A named place in a composite. -/
structure Node where
  id : String
  target : NodeRef

/-- What a node runs. -/
inductive NodeRef where
  /-- A component that is written out in place. -/
  | inline (component : Component)
  /-- The latest version of a stored component. -/
  | latest (id : ComponentId)
  /-- One version of a stored component. -/
  | pinned (id : ComponentId) (version : UInt64)

end

/-! ## Requests -/

/-- What a reference asks for: a stored component, in its latest or in one version. -/
inductive Request where
  | latest (id : ComponentId)
  | pinned (id : ComponentId) (version : UInt64)
  deriving DecidableEq

namespace Request

/-- The identifier that is asked for. -/
def id : Request → ComponentId
  | .latest id => id
  | .pinned id _ => id

/-- How messages name a request. -/
def text : Request → String
  | .latest id => s!"component {id}@latest"
  | .pinned id version => s!"component {id}@{version}"

instance : ToString Request := ⟨text⟩

end Request

/-! ## Nodes -/

namespace NodeRef

/-- The component that is written out in place. -/
def component? : NodeRef → Option Component
  | .inline component => some component
  | .latest _ | .pinned _ _ => none

/-- What a reference asks for. -/
def request? : NodeRef → Option Request
  | .inline _ => none
  | .latest id => some (.latest id)
  | .pinned id version => some (.pinned id version)

/-- The tag of the variant in documents. -/
def variant : NodeRef → String
  | .inline _ => "component"
  | .latest _ => "reference"
  | .pinned _ _ => "reference_version"

end NodeRef

/-- The component that is written out at a node. -/
def Node.component? (node : Node) : Option Component := node.target.component?

/-! ## Composites -/

namespace Conditional

/-- The nodes of which one runs, the one for a true condition first. -/
def branches (conditional : Conditional) : List Node :=
  conditional.nodeTrue :: conditional.nodeFalse.toList

/-- The node is one of the branches. -/
def isBranch (conditional : Conditional) (id : String) : Bool :=
  conditional.branches.any (·.id = id)

end Conditional

namespace Graph

/-- A graph without nodes. -/
def empty : Graph := ⟨[], [], [], []⟩

/-- The first node of an identifier. -/
def node? (graph : Graph) (id : String) : Option Node := graph.nodes.find? (·.id = id)

/-- The edges into a node. -/
def incoming (graph : Graph) (id : String) : List Edge :=
  graph.edges.filter (·.target.node = id)

/-- The nodes with an edge into a node, each once, in the order of their first edges. -/
def dependencies (graph : Graph) (id : String) : List String :=
  ((graph.incoming id).map (·.source.node)).foldl
    (fun seen source => if source ∈ seen then seen else seen ++ [source]) []

end Graph

namespace Implementation

/-- The nodes of a composite, in order. -/
def children : Implementation → List Node
  | .graph block => block.nodes
  | .map block => [block.node]
  | .conditional block => block.branches
  | .brick _ | .any => []

/-- The tag of the variant in documents. -/
def kind : Implementation → String
  | .brick _ => "brick"
  | .graph _ => "graph"
  | .map _ => "map"
  | .conditional _ => "conditional"
  | .any => "any"

end Implementation

namespace Component

/-- A component without ports. -/
def ofImplementation (id : ComponentId) (name : String) (implementation : Implementation) :
    Component :=
  ⟨id, name, none, none, none, none, [], [], implementation⟩

/-- The nodes of a component, in order. -/
def children (component : Component) : List Node := component.implementation.children

/-- The first input port of a name. -/
def input? (component : Component) (name : String) : Option Port :=
  Port.find? component.inputs name

/-- The first output port of a name. -/
def output? (component : Component) (name : String) : Option Port :=
  Port.find? component.outputs name

/-- A component at a node is smaller than the component around it. -/
theorem sizeOf_child {component child : Component} {node : Node}
    (hnode : node ∈ component.children) (hchild : node.component? = some child) :
    sizeOf child < sizeOf component := by
  have target : node.target = .inline child := by
    unfold Node.component? NodeRef.component? at hchild
    split at hchild <;> simp_all
  have smaller : sizeOf child < sizeOf node := by
    obtain ⟨id, target'⟩ := node
    simp only at target
    subst target
    simp only [Node.mk.sizeOf_spec, NodeRef.inline.sizeOf_spec]
    omega
  refine Nat.lt_trans smaller ?_
  obtain ⟨id, name, description, modifier, timestamp, version, inputs, outputs, implementation⟩ :=
    component
  simp only [children] at hnode
  cases implementation with
  | brick _ => simp [Implementation.children] at hnode
  | any => simp [Implementation.children] at hnode
  | graph graph =>
    obtain ⟨nodes, edges, inputMappings, outputMappings⟩ := graph
    have := List.sizeOf_lt_of_mem (show node ∈ nodes from hnode)
    simp only [Component.mk.sizeOf_spec, Implementation.graph.sizeOf_spec, Graph.mk.sizeOf_spec]
    omega
  | map map =>
    obtain ⟨node', inputMappings, outputMappings⟩ := map
    simp only [Implementation.children, List.mem_singleton] at hnode
    subst hnode
    simp only [Component.mk.sizeOf_spec, Implementation.map.sizeOf_spec, MapBlock.mk.sizeOf_spec]
    omega
  | conditional conditional =>
    obtain ⟨nodeTrue, nodeFalse, condition, inputMappings, outputMappings⟩ := conditional
    simp only [Implementation.children, Conditional.branches, List.mem_cons,
      Option.mem_toList] at hnode
    simp only [Component.mk.sizeOf_spec, Implementation.conditional.sizeOf_spec,
      Conditional.mk.sizeOf_spec]
    rcases hnode with rfl | hnode
    · omega
    · subst hnode
      simp only [Option.some.sizeOf_spec]
      omega

end Component

mutual
/-- Every node of the tree holds its component inline. -/
def Component.isDereferenced : Component → Bool
  | ⟨_, _, _, _, _, _, _, _, .brick _⟩ | ⟨_, _, _, _, _, _, _, _, .any⟩ => true
  | ⟨_, _, _, _, _, _, _, _, .graph ⟨nodes, _, _, _⟩⟩ => Node.allDereferenced nodes
  | ⟨_, _, _, _, _, _, _, _, .map ⟨node, _, _⟩⟩ => node.isDereferenced
  | ⟨_, _, _, _, _, _, _, _, .conditional ⟨nodeTrue, none, _, _, _⟩⟩ => nodeTrue.isDereferenced
  | ⟨_, _, _, _, _, _, _, _, .conditional ⟨nodeTrue, some nodeFalse, _, _, _⟩⟩ =>
    nodeTrue.isDereferenced && nodeFalse.isDereferenced
termination_by structural component => component
/-- The node and all nodes below it hold their components inline. -/
def Node.isDereferenced : Node → Bool
  | ⟨_, .inline component⟩ => component.isDereferenced
  | ⟨_, .latest _⟩ | ⟨_, .pinned _ _⟩ => false
termination_by structural node => node
def Node.allDereferenced : List Node → Bool
  | [] => true
  | node :: nodes => node.isDereferenced && Node.allDereferenced nodes
termination_by structural nodes => nodes
end

end Pipeline
