/-
Composites, all treated alike.

A graph, a map and a conditional differ in how they are written and in the tasks
they become. For walking the tree they are the same: a scope of nodes with
connections (`wiring`), some of which are handed the bindings of another one
(`claimants`). The functions that walk the tree have one equation each in these
terms, so that a proof about all components has one case for bricks and one for
composites, and no case for how many branches a conditional has.

Proofs about whole trees go by `Component.induction`, from the children of a
component to the component.
-/
import Mathlib.Logic.Relation
import Pipeline.Lowering.Templates
import Pipeline.Proofs.Lookup
import Pipeline.Proofs.Outcome

set_option autoImplicit false

namespace Pipeline

open Manifest (Template)

/-! ## The tree -/

namespace Component

/-- The child is written out at a node of the component. -/
def HasChild (component child : Component) : Prop :=
  ∃ node ∈ component.children, node.component? = some child

/-- The inner component stands somewhere in the tree of the component, the component itself
included. -/
def Within (component inner : Component) : Prop :=
  Relation.ReflTransGen HasChild component inner

theorem Within.refl (component : Component) : component.Within component :=
  Relation.ReflTransGen.refl

theorem Within.child {component inner child : Component} (h : component.Within inner)
    (hchild : inner.HasChild child) : component.Within child :=
  Relation.ReflTransGen.tail h hchild

theorem Within.below {component child inner : Component} (hchild : component.HasChild child)
    (h : child.Within inner) : component.Within inner :=
  Relation.ReflTransGen.head hchild h

theorem HasChild.sizeOf_lt {component child : Component} (h : component.HasChild child) :
    sizeOf child < sizeOf component := by
  obtain ⟨node, hnode, hchild⟩ := h
  exact sizeOf_child hnode hchild

/-- What stands in a tree is no larger than the tree. -/
theorem Within.sizeOf_le {component inner : Component} (h : component.Within inner) :
    sizeOf inner ≤ sizeOf component := by
  induction h with
  | refl => exact Nat.le_refl _
  | tail _ hchild ih => exact Nat.le_trans (Nat.le_of_lt hchild.sizeOf_lt) ih

/-- What stands in a tree stands at its root or below one of the children there. -/
theorem within_iff {component inner : Component} :
    component.Within inner ↔
      inner = component ∨ ∃ child, component.HasChild child ∧ child.Within inner := by
  rw [Within, Relation.ReflTransGen.cases_head_iff, eq_comm]
  rfl

/-- What passes from the children of a component to the component holds everywhere. -/
theorem induction {motive : Component → Prop}
    (step : ∀ component, (∀ child, component.HasChild child → motive child) → motive component)
    (component : Component) : motive component :=
  step component fun child _ => induction step child
termination_by sizeOf component
decreasing_by exact HasChild.sizeOf_lt ‹_›

end Component

/-! ## One scope for all composites -/

namespace Implementation

/-- The nodes and connections of a composite; a brick has none. -/
def wiring : Implementation → Graph
  | .graph block => block
  | .map block => block.wiring
  | .conditional block => block.wiring
  | .brick _ | .any => .empty

/-- The nodes of a composite, each with the one whose bindings it is handed. -/
def claimants : Implementation → List (String × Node)
  | .graph block => block.nodes.map fun node => (node.id, node)
  | .map block => [(block.node.id, block.node)]
  | .conditional block => block.branches.map fun node => (block.nodeTrue.id, node)
  | .brick _ | .any => []

end Implementation

namespace Component

/-- The nodes and connections of a composite; a brick has none. -/
def wiring (component : Component) : Graph := component.implementation.wiring

/-- The nodes of a composite, each with the one whose bindings it is handed. -/
def claimants (component : Component) : List (String × Node) := component.implementation.claimants

/-- The implementation decides on the wiring. -/
theorem wiring_eq {component : Component} {implementation : Implementation}
    (h : component.implementation = implementation) : component.wiring = implementation.wiring := by
  rw [wiring, h]

/-- The component does not run a container itself. -/
def IsComposite (component : Component) : Prop :=
  ∀ brick, component.implementation ≠ .brick brick

theorem brick_or_composite (component : Component) :
    (∃ brick, component.implementation = .brick brick) ∨ component.IsComposite := by
  by_cases hbrick : ∃ brick, component.implementation = .brick brick
  · exact .inl hbrick
  · exact .inr (not_exists.1 hbrick)

theorem children_eq_nodes (component : Component) :
    component.children = component.wiring.nodes := by
  unfold children wiring
  cases component.implementation <;> rfl

theorem children_eq_map_claimants (component : Component) :
    component.children = component.claimants.map Prod.snd := by
  unfold children claimants
  cases component.implementation <;>
    simp [Implementation.children, Implementation.claimants, Function.comp_def]

theorem hasChild_of_node {component child : Component} {node : Node}
    (hnode : node ∈ component.wiring.nodes) (hchild : node.component? = some child) :
    component.HasChild child := by
  refine ⟨node, ?_, hchild⟩
  rwa [children_eq_nodes]

theorem hasChild_of_claimant {component child : Component} {claimant : String} {node : Node}
    (hclaim : (claimant, node) ∈ component.claimants) (hchild : node.component? = some child) :
    component.HasChild child := by
  refine ⟨node, ?_, hchild⟩
  rw [children_eq_map_claimants]
  exact List.mem_map_of_mem hclaim

theorem HasChild.exists_claimant {component child : Component} (h : component.HasChild child) :
    ∃ claimant node, (claimant, node) ∈ component.claimants ∧ node.component? = some child := by
  obtain ⟨node, hnode, hchild⟩ := h
  rw [children_eq_map_claimants] at hnode
  obtain ⟨⟨claimant, _⟩, hclaim, rfl⟩ := List.mem_map.1 hnode
  exact ⟨claimant, _, hclaim, hchild⟩

end Component

/-! ## Nodes -/

/-- A node that holds its component inline gives it, and any other one fails with its reference. -/
theorem Node.component_eq_ok {node : Node} {child : Component} :
    node.component = .ok child ↔ node.component? = some child := by
  obtain ⟨id, target⟩ := node
  cases target <;> simp [component, component?, NodeRef.component?, fault]

theorem Node.component_of_reference {node : Node} (h : node.component? = none) :
    node.component = fault (.notDereferenced node.id node.target.variant) := by
  obtain ⟨id, target⟩ := node
  cases target with
  | inline component => simp [component?, NodeRef.component?] at h
  | latest _ => rfl
  | pinned _ _ => rfl

theorem Node.carried_of_component {node : Node} {child : Component} (port : String)
    (h : node.component? = some child) :
    node.carried port = inside child.id (child.carried port) := by
  obtain ⟨id, target⟩ := node
  cases target with
  | inline component =>
    obtain rfl : component = child := by simpa [component?, NodeRef.component?] using h
    rfl
  | latest _ => simp [component?, NodeRef.component?] at h
  | pinned _ _ => simp [component?, NodeRef.component?] at h

theorem Node.carried_of_reference {node : Node} (port : String) (h : node.component? = none) :
    node.carried port = fault (.notDereferenced node.id node.target.variant) := by
  obtain ⟨id, target⟩ := node
  cases target with
  | inline component => simp [component?, NodeRef.component?] at h
  | latest _ => rfl
  | pinned _ _ => rfl

theorem Node.templates_of_component {node : Node} {child : Component} (settings : Settings)
    (narrow : Component → Lowered Scopes) (h : node.component? = some child) :
    node.templates settings narrow =
      (narrow child >>= fun scopes => inside child.id (child.allTemplates settings scopes)) := by
  obtain ⟨id, target⟩ := node
  cases target with
  | inline component =>
    obtain rfl : component = child := by simpa [component?, NodeRef.component?] using h
    rfl
  | latest _ => simp [component?, NodeRef.component?] at h
  | pinned _ _ => simp [component?, NodeRef.component?] at h

theorem Node.templates_of_reference {node : Node} (settings : Settings)
    (narrow : Component → Lowered Scopes) (h : node.component? = none) :
    node.templates settings narrow = fault (.notDereferenced node.id node.target.variant) := by
  obtain ⟨id, target⟩ := node
  cases target with
  | inline component => simp [component?, NodeRef.component?] at h
  | latest _ => rfl
  | pinned _ _ => rfl

/-! ## Following volumes inwards -/

/-- The input whose volume a brick puts out at an output, if it does so. -/
def Brick.backing? (brick : Brick) (port : String) : Option String :=
  match (brick.result? port).map BrickResult.source with
  | some (.volume input) => some input
  | _ => none

theorem Node.carriedAt_eq_find (nodes : List Node) (ref : PortRef) :
    Node.carriedAt nodes ref =
      match nodes.find? (·.id = ref.node) with
      | some node => node.carried ref.port
      | none => fault (.unknownNode ref.node) := by
  induction nodes with
  | nil => rfl
  | cons node nodes ih =>
    rw [Node.carriedAt, List.find?_cons]
    by_cases h : node.id = ref.node
    · simp [h]
    · simp [h, ih]

/-- A list of nodes answers for an output by the component at the first node of the identifier. -/
theorem Node.carriedAt_eq_ok {nodes : List Node} {ref : PortRef} {answer : Option String} :
    Node.carriedAt nodes ref = .ok answer ↔
      ∃ node child, nodes.find? (·.id = ref.node) = some node ∧ node.component? = some child ∧
        child.carried ref.port = .ok answer := by
  rw [Node.carriedAt_eq_find]
  cases hfind : nodes.find? (·.id = ref.node) with
  | none => simp [fault]
  | some node =>
    cases hchild : node.component? with
    | none => simp [Node.carried_of_reference _ hchild, hchild, fault]
    | some child => simp [Node.carried_of_component _ hchild, hchild, inside_eq_ok]

theorem Component.carried_of_brick {component : Component} {brick : Brick} (port : String)
    (h : component.implementation = .brick brick) :
    component.carried port = .ok (brick.backing? port) := by
  obtain ⟨id, name, description, modifier, timestamp, version, inputs, outputs, implementation⟩ :=
    component
  obtain rfl : implementation = .brick brick := h
  rw [Component.carried, Brick.backing?]
  cases (brick.result? port).map BrickResult.source with
  | none => rfl
  | some source => cases source <;> rfl

/-- A composite answers for an output through its mappings and the nodes they name. -/
theorem Component.carried_of_composite {component : Component} (port : String)
    (h : component.IsComposite) :
    component.carried port =
      component.wiring.traceOutput (Node.carriedAt component.wiring.nodes) port := by
  obtain ⟨id, name, description, modifier, timestamp, version, inputs, outputs, implementation⟩ :=
    component
  cases implementation with
  | brick brick => exact absurd rfl (h brick)
  | any => rfl
  | graph block =>
    obtain ⟨nodes, edges, inputMappings, outputMappings⟩ := block
    rfl
  | map block =>
    obtain ⟨node, inputMappings, outputMappings⟩ := block
    -- The one node is asked by a test of its own, and not through a list.
    have hat : (fun ref : PortRef =>
        if node.id = ref.node then node.carried ref.port else fault (.unknownNode ref.node)) =
        Node.carriedAt [node] := by
      funext ref
      rw [Node.carriedAt, Node.carriedAt]
    rw [Component.carried, hat]
    rfl
  | conditional block =>
    obtain ⟨nodeTrue, nodeFalse, condition, inputMappings, outputMappings⟩ := block
    cases nodeFalse with
    | none => rfl
    | some nodeFalse => rfl

/-! ## Conditionals -/

/-- Every mapping goes through the first branch, or stands beside one that does. -/
theorem Conditional.checkMappings_eq_ok {conditional : Conditional} :
    conditional.checkMappings = .ok () ↔
      (∀ mapping ∈ conditional.inputMappings, mapping.target.node = conditional.nodeTrue.id) ∧
        ∀ mapping ∈ conditional.outputMappings, mapping.source.node ≠ conditional.nodeTrue.id →
          ∃ other ∈ conditional.outputMappings, other.source.node = conditional.nodeTrue.id ∧
            other.target = mapping.target := by
  have hinputs : conditional.inputMappings.find? (·.target.node ≠ conditional.nodeTrue.id) = none ↔
      ∀ mapping ∈ conditional.inputMappings, mapping.target.node = conditional.nodeTrue.id := by
    simp [List.find?_eq_none]
  have houtputs : (conditional.outputMappings.find? fun mapping =>
        mapping.source.node ≠ conditional.nodeTrue.id &&
          !conditional.outputMappingsTrue.any (·.target = mapping.target)) = none ↔
      ∀ mapping ∈ conditional.outputMappings, mapping.source.node ≠ conditional.nodeTrue.id →
        ∃ other ∈ conditional.outputMappings, other.source.node = conditional.nodeTrue.id ∧
          other.target = mapping.target := by
    simp [List.find?_eq_none, outputMappingsTrue]
  rw [← hinputs, ← houtputs, checkMappings]
  -- What is found is a fault, whichever of the two it is.
  split
  · rename_i hinput
    rw [hinput]
    simp [fault]
  · rename_i hinput
    split
    · rename_i houtput
      rw [houtput]
      simp [fault]
    · rename_i houtput
      rw [hinput, houtput]
      exact ⟨fun _ => ⟨rfl, rfl⟩, fun _ => rfl⟩

/-! ## Lowering a tree -/

theorem Node.eachTemplates_eq_mapM (settings : Settings) (nodes : List Node)
    (narrow : String → Component → Lowered Scopes) :
    Node.eachTemplates settings nodes narrow = do
      let each ← nodes.mapM fun node : Node => node.templates settings (narrow node.id)
      return each.flatten := by
  induction nodes with
  | nil => rfl
  | cons node nodes ih =>
    rw [Node.eachTemplates, ih, List.mapM_cons]
    simp only [bind_assoc, pure_bind, List.flatten_cons]

/-- A component contributes its own template and then those below its nodes, in order, each node
under what is handed down to its claimant. -/
theorem Component.allTemplates_eq (component : Component) (settings : Settings) (scopes : Scopes) :
    component.allTemplates settings scopes = do
      let own ← component.template settings scopes
      let below ← component.claimants.mapM fun claim : String × Node =>
        claim.2.templates settings (component.wiring.narrow scopes claim.1)
      return own :: below.flatten := by
  obtain ⟨id, name, description, modifier, timestamp, version, inputs, outputs, implementation⟩ :=
    component
  cases implementation with
  | brick brick =>
    simp only [Component.allTemplates]
    rfl
  | any =>
    simp only [Component.allTemplates]
    rfl
  | graph block =>
    obtain ⟨nodes, edges, inputMappings, outputMappings⟩ := block
    simp only [Component.allTemplates, Node.eachTemplates_eq_mapM]
    refine bind_congr fun own => ?_
    simp only [bind_assoc, pure_bind, claimants, Implementation.claimants, List.mapM_map]
    rfl
  | map block =>
    obtain ⟨node, inputMappings, outputMappings⟩ := block
    simp only [Component.allTemplates]
    refine bind_congr fun own => ?_
    simp only [claimants, Implementation.claimants, List.mapM_cons, List.mapM_nil, bind_assoc,
      pure_bind, List.flatten_cons, List.flatten_nil, List.append_nil]
    rfl
  | conditional block =>
    obtain ⟨nodeTrue, nodeFalse, condition, inputMappings, outputMappings⟩ := block
    cases nodeFalse with
    | none =>
      simp only [Component.allTemplates]
      refine bind_congr fun own => ?_
      simp only [claimants, Implementation.claimants, Conditional.branches, Option.toList_none,
        List.map_cons, List.map_nil, List.mapM_cons, List.mapM_nil, bind_assoc, pure_bind,
        List.flatten_cons, List.flatten_nil, List.append_nil]
      rfl
    | some nodeFalse =>
      simp only [Component.allTemplates]
      refine bind_congr fun own => ?_
      simp only [claimants, Implementation.claimants, Conditional.branches, Option.toList_some,
        List.map_cons, List.map_nil, List.mapM_cons, List.mapM_nil, bind_assoc, pure_bind,
        List.flatten_cons, List.flatten_nil, List.append_nil]
      rfl

/-! ## Small trees

Enough to write down trees in which volumes are passed on: a brick that mounts the volume of its one
input and puts it out again, and a graph whose own ports all are volumes. -/

/-- The identifier of which all digits are the same, the last one of a number. -/
def ComponentId.repeating (number : Nat) : ComponentId :=
  ⟨List.replicate 32 ⟨number % 16, Nat.mod_lt number (by decide)⟩, List.length_replicate⟩

/-- A brick that mounts the volume of `in` and puts it out at `out`. -/
def Component.volumeBrick (number : Nat) : Component :=
  let brick : Brick := ⟨.ofImage "alpine", [.port "in"], [⟨"out", .volume "in"⟩]⟩
  { Component.ofImplementation (.repeating number) "brick" (.brick brick) with
    inputs := [⟨"in", .volume⟩]
    outputs := [⟨"out", .volume⟩] }

/-- A graph that takes and puts out volumes. -/
def Component.volumeGraph (number : Nat) (inputs outputs : List String) (graph : Graph) :
    Component :=
  { Component.ofImplementation (.repeating number) "graph" (.graph graph) with
    inputs := inputs.map fun name => ⟨name, .volume⟩
    outputs := outputs.map fun name => ⟨name, .volume⟩ }

namespace Component

/-- Nothing stands below a brick. -/
theorem within_volumeBrick {number : Nat} {inner : Component} :
    (volumeBrick number).Within inner ↔ inner = volumeBrick number := by
  rw [within_iff]
  simp [HasChild, children, volumeBrick, ofImplementation, Implementation.children]

/-- What stands below a graph stands below its nodes. -/
theorem within_volumeGraph {number : Nat} {inputs outputs : List String} {graph : Graph}
    {inner : Component} :
    (volumeGraph number inputs outputs graph).Within inner ↔
      inner = volumeGraph number inputs outputs graph ∨
        ∃ node ∈ graph.nodes, ∃ child, node.component? = some child ∧ child.Within inner := by
  rw [within_iff]
  refine or_congr_right ⟨?_, ?_⟩
  · rintro ⟨child, ⟨node, hnode, hchild⟩, hinner⟩
    exact ⟨node, hnode, child, hchild, hinner⟩
  · rintro ⟨node, hnode, child, hchild, hinner⟩
    exact ⟨child, ⟨node, hnode, hchild⟩, hinner⟩

end Component

end Pipeline
