/-
Port types in documents.

The type of a port is one of five names. Ports are written at the inputs and outputs of
a component, and at the data operands of a condition, where the type stands beside the
tag of the operand. Components are written at the nodes of others, so that there is no
end to the places at which a type can stand in a document.

No reader on the way to such a place can do without what it finds there: each demands the
part that it hands on (`Json.Demands`). Hence the document of a component cannot be read
any more when any one type in it is replaced by a name that is not one.
-/
import Pipeline.Proofs.ComponentDocuments
import Pipeline.Proofs.DocumentPlaces

set_option autoImplicit false

namespace Pipeline

open Json (Beside Demands IsNamed Step areNamed_of_areFields isNamed_field)

/-! ## Places -/

/-- A data operand of the condition, under its key. -/
inductive Condition.OperandAt : Condition → String → Port → Prop
  | left {condition : Condition} {port : Port} (h : condition.left = .data port) :
    OperandAt condition "left" port
  | right {condition : Condition} {port : Port} (h : condition.right = .data port) :
    OperandAt condition "right" port

/-- A node of the implementation, at its place in the document of the implementation. -/
inductive Implementation.NodeAt : Implementation → List Step → Node → Prop
  | graph {block : Graph} {position : Nat} {node : Node}
      (h : block.nodes[position]? = some node) :
    NodeAt (.graph block) [.key "nodes", .index position] node
  | map {block : MapBlock} : NodeAt (.map block) [.key "node"] block.node
  | nodeTrue {block : Conditional} : NodeAt (.conditional block) [.key "node_true"] block.nodeTrue
  | nodeFalse {block : Conditional} {node : Node} (h : block.nodeFalse = some node) :
    NodeAt (.conditional block) [.key "node_false"] node

namespace Component

/-- A port of the component itself or of the condition in it, at its place in the document of the
component. -/
inductive PortAt : Component → List Step → Port → Prop
  | input {component : Component} {position : Nat} {port : Port}
      (h : component.inputs[position]? = some port) :
    PortAt component [.key "inputs", .index position] port
  | output {component : Component} {position : Nat} {port : Port}
      (h : component.outputs[position]? = some port) :
    PortAt component [.key "outputs", .index position] port
  | operand {component : Component} {block : Conditional} {key : String} {port : Port}
      (hblock : component.implementation = .conditional block)
      (h : block.condition.OperandAt key port) :
    PortAt component [.key "implementation", .key "expression", .key key] port

/-- A component that is written out in the tree of another one, at its place in the document of
that one. -/
inductive StandsAt : Component → List Step → Component → Prop
  | here (component : Component) : StandsAt component [] component
  | deeper {component child inner : Component} {node : Node} {outer place : List Step}
      (hnode : component.implementation.NodeAt outer node)
      (hchild : node.component? = some child) (h : child.StandsAt place inner) :
    StandsAt component (.key "implementation" :: (outer ++ .key "node" :: place)) inner

end Component

/-- Every node has a place, and only nodes have. -/
theorem Implementation.mem_children {implementation : Implementation} {node : Node} :
    node ∈ implementation.children ↔ ∃ place, implementation.NodeAt place node := by
  constructor
  · intro hnode
    cases implementation with
    | brick _ | any => cases hnode
    | graph block =>
      obtain ⟨position, hposition⟩ := List.getElem?_of_mem hnode
      exact ⟨_, .graph hposition⟩
    | map block =>
      obtain rfl := List.mem_singleton.1 hnode
      exact ⟨_, .map⟩
    | conditional block =>
      rcases List.mem_cons.1 hnode with rfl | hnode
      · exact ⟨_, .nodeTrue⟩
      · exact ⟨_, .nodeFalse (Option.mem_toList.1 hnode)⟩
  · rintro ⟨place, hplace⟩
    cases hplace with
    | graph h => exact List.mem_of_getElem? h
    | map => exact List.mem_cons_self
    | nodeTrue => exact List.mem_cons_self
    | nodeFalse h => exact List.mem_cons_of_mem _ (Option.mem_toList.2 h)

/-- What stands in the tree has a place in the document, and nothing else has. -/
theorem Component.within_iff_standsAt {component inner : Component} :
    component.Within inner ↔ ∃ place, component.StandsAt place inner := by
  constructor
  · intro h
    induction component using Component.induction with
    | step component ih =>
      rcases within_iff.1 h with rfl | ⟨child, hchild, hinner⟩
      · exact ⟨[], .here _⟩
      · obtain ⟨place, hplace⟩ := ih child hchild hinner
        obtain ⟨node, hnode, hinline⟩ := hchild
        obtain ⟨outer, houter⟩ := Implementation.mem_children.1 hnode
        exact ⟨_, .deeper houter hinline hplace⟩
  · rintro ⟨place, hplace⟩
    induction hplace with
    | here component => exact .refl component
    | deeper hnode hchild _ ih =>
      exact ih.below ⟨_, Implementation.mem_children.2 ⟨_, hnode⟩, hchild⟩

/-- The port is an input or output of the component, or the data operand of the condition in it. -/
def Component.Mentions (component : Component) (port : Port) : Prop :=
  port ∈ component.inputs ∨ port ∈ component.outputs ∨
    ∃ block, component.implementation = .conditional block ∧
      (block.condition.left = .data port ∨ block.condition.right = .data port)

/-- What a component mentions has a place in its document, and nothing else has. -/
theorem Component.mentions_iff_portAt {component : Component} {port : Port} :
    component.Mentions port ↔ ∃ place, component.PortAt place port := by
  constructor
  · rintro (hinput | houtput | ⟨block, hblock, hleft | hright⟩)
    · obtain ⟨position, hposition⟩ := List.getElem?_of_mem hinput
      exact ⟨_, .input hposition⟩
    · obtain ⟨position, hposition⟩ := List.getElem?_of_mem houtput
      exact ⟨_, .output hposition⟩
    · exact ⟨_, .operand hblock (.left hleft)⟩
    · exact ⟨_, .operand hblock (.right hright)⟩
  · rintro ⟨place, hplace⟩
    cases hplace with
    | input h => exact .inl (List.mem_of_getElem? h)
    | output h => exact .inr (.inl (List.mem_of_getElem? h))
    | operand hblock h =>
      refine .inr (.inr ⟨_, hblock, ?_⟩)
      cases h with
      | left h => exact .inl h
      | right h => exact .inr h

/-! ## Ports -/

theorem PortType.ofJson?_string {text : String} (h : ∀ type : PortType, type.name ≠ text) :
    ofJson? (.string text) = none := by
  rw [ofJson?, Json.name?]
  cases hname : ofName? text with
  | none => rfl
  | some type =>
    refine absurd ?_ (h type)
    unfold ofName? at hname
    split at hname <;> cases hname <;> rfl

theorem Port.areNamed (port : Port) : List.Forall₂ IsNamed ["name", "type"] port.members :=
  areNamed_of_areFields port.recordReadsBack.areFields

theorem Port.demands_type (port : Port) :
    Demands ofJson? port.toJson [.key "type"] PortType.ofJson? (.string port.type.name) := by
  refine .field port.areNamed (by decide) (.tail _ (.head _)) (by simp)
    fun document found part hfields hpart _ hread => ?_
  rcases hfields with hfields | hfields <;>
    simp [ofJson?, hfields, hpart, Json.required, hread]

/-- The type of a data operand stands beside its tag. -/
theorem Operand.demands_type (port : Port) :
    Demands ofJson? (toJson (.data port)) [.key "type"] PortType.ofJson?
      (.string port.type.name) := by
  refine .variant port.demands_type ⟨_, _, rfl, by decide⟩ port.areNamed (by decide)
    fun document rest htagged hread => ?_
  rcases htagged with htagged | htagged <;> simp [ofJson?, htagged, hread]

/-! ## Conditions -/

theorem Condition.demands_operand {condition : Condition} {key : String} {port : Port}
    (h : condition.OperandAt key port) :
    Demands ofJson? condition.toJson [.key key, .key "type"] PortType.ofJson?
      (.string port.type.name) := by
  have hnamed : List.Forall₂ IsNamed ["left", "operator", "right"]
      [Json.field "left" condition.left.toJson, Json.field "operator" condition.operator.toJson,
        Json.field "right" condition.right.toJson] :=
    .cons (isNamed_field "left" _) (.cons (isNamed_field "operator" _)
      (.cons (isNamed_field "right" _) .nil))
  have hoperand : Demands ofJson? condition.toJson [.key key] Operand.ofJson?
      (Operand.toJson (.data port)) := by
    cases h with
    | left h | right h =>
      refine .field hnamed (by decide) (by simp [h]) (Json.record_ne_null _)
        fun document found part hfields hpart _ hread => ?_
      rcases hfields with hfields | hfields <;>
        simp [ofJson?, hfields, hpart, Json.required, hread]
  exact hoperand.trans (Operand.demands_type port)

/-! ## What holds nodes -/

section Holders

theorem Implementation.toJson_ne_null (implementation : Implementation) :
    implementation.toJson ≠ .null := by
  cases implementation <;> exact Json.record_ne_null _

theorem NodeRef.toJson_ne_null (ref : NodeRef) : ref.toJson ≠ .null := by
  cases ref <;> exact Json.record_ne_null _

theorem Node.toJson_ne_null (node : Node) : node.toJson ≠ .null := by
  obtain ⟨id, target⟩ := node
  exact Json.record_ne_null _

variable {node? : Json → Option Node}

theorem Graph.demands_node {graph : Graph} {position : Nat} {node : Node}
    (h : graph.nodes[position]? = some node) :
    Demands (Document.graph? node?) graph.toJson [.key "nodes", .index position] node?
      node.toJson := by
  have hnamed := graph.areNamed
  obtain ⟨nodes, edges, inputMappings, outputMappings⟩ := graph
  have hnodes : Demands (Document.graph? node?)
      (toJson ⟨nodes, edges, inputMappings, outputMappings⟩) [.key "nodes"]
      (Json.list? node?) (.array (nodes.map Node.toJson)) := by
    rw [toJson]
    refine .field hnamed (by decide) ?_ (by simp)
      fun document found part hfields hpart _ hread => ?_
    · rw [members, Node.listToJson_eq_map]
      exact .head _
    · rcases hfields with hfields | hfields <;>
        simp [Document.graph?, hfields, hpart, Json.defaulted, hread]
  refine hnodes.trans (.item ?_)
  rw [List.getElem?_map, h, Option.map_some]

theorem MapBlock.demands_node (map : MapBlock) :
    Demands (Document.map? node?) map.toJson [.key "node"] node? map.node.toJson := by
  have hnamed := map.areNamed
  obtain ⟨node, inputMappings, outputMappings⟩ := map
  refine .field hnamed (by decide) (.head _) node.toJson_ne_null
    fun document found part hfields hpart _ hread => ?_
  rcases hfields with hfields | hfields <;>
    simp [Document.map?, hfields, hpart, Json.required, hread]

theorem Conditional.demands_nodeTrue (conditional : Conditional) :
    Demands (Document.conditional? node?) conditional.toJson [.key "node_true"] node?
      conditional.nodeTrue.toJson := by
  have hnamed := conditional.areNamed
  obtain ⟨nodeTrue, nodeFalse, condition, inputMappings, outputMappings⟩ := conditional
  refine .field hnamed (by decide) (.head _) nodeTrue.toJson_ne_null
    fun document found part hfields hpart _ hread => ?_
  rcases hfields with hfields | hfields <;>
    simp [Document.conditional?, hfields, hpart, Json.required, hread]

/-- The second branch may be absent, but one that is there has to be readable. -/
theorem Conditional.demands_nodeFalse {conditional : Conditional} {node : Node}
    (h : conditional.nodeFalse = some node) :
    Demands (Document.conditional? node?) conditional.toJson [.key "node_false"] node?
      node.toJson := by
  have hnamed := conditional.areNamed
  obtain ⟨nodeTrue, nodeFalse, condition, inputMappings, outputMappings⟩ := conditional
  obtain rfl : nodeFalse = some node := h
  refine .field hnamed (by decide) (.tail _ (.head _)) node.toJson_ne_null
    fun document found part hfields hpart hpresent hread => ?_
  rcases hfields with hfields | hfields <;>
    simp [Document.conditional?, hfields, hpart, Json.optional_of_ne_null hpresent, hread]

theorem Conditional.demands_condition (conditional : Conditional) :
    Demands (Document.conditional? node?) conditional.toJson [.key "expression"] Condition.ofJson?
      conditional.condition.toJson := by
  have hnamed := conditional.areNamed
  obtain ⟨nodeTrue, nodeFalse, condition, inputMappings, outputMappings⟩ := conditional
  refine .field hnamed (by decide) (.tail _ (.tail _ (.head _))) (Json.record_ne_null _)
    fun document found part hfields hpart _ hread => ?_
  rcases hfields with hfields | hfields <;>
    simp [Document.conditional?, hfields, hpart, Json.required, hread]

/-- What stands beside the tag of a conditional is demanded by it. -/
theorem Implementation.demands_of_conditional {β : Type} {block : Conditional} {place : List Step}
    {part? : Json → Option β} {part : Json} (hplace : Beside "type" place)
    (h : Demands (Document.conditional? node?) block.toJson place part? part) :
    Demands (Document.implementation? node?) (toJson (.conditional block)) place part? part := by
  refine .variant h hplace block.areNamed (by decide) fun document rest htagged hread => ?_
  rcases htagged with htagged | htagged <;> simp [Document.implementation?, htagged, hread]

theorem Implementation.demands_node {implementation : Implementation} {place : List Step}
    {node : Node} (h : implementation.NodeAt place node) :
    Demands (Document.implementation? node?) implementation.toJson place node? node.toJson := by
  cases h with
  | @graph block position _ h =>
    refine .variant (Graph.demands_node h) ⟨_, _, rfl, by decide⟩ block.areNamed (by decide)
      fun document rest htagged hread => ?_
    rcases htagged with htagged | htagged <;> simp [Document.implementation?, htagged, hread]
  | @map block =>
    refine .variant block.demands_node ⟨_, _, rfl, by decide⟩ block.areNamed (by decide)
      fun document rest htagged hread => ?_
    rcases htagged with htagged | htagged <;> simp [Document.implementation?, htagged, hread]
  | @nodeTrue block =>
    exact demands_of_conditional ⟨_, _, rfl, by decide⟩ block.demands_nodeTrue
  | nodeFalse h =>
    exact demands_of_conditional ⟨_, _, rfl, by decide⟩ (Conditional.demands_nodeFalse h)

/-! ## Components -/

namespace Component

theorem demands_ports (component : Component) :
    Demands (Document.component? node?) component.toJson [.key "inputs"] (Json.list? Port.ofJson?)
        (.array (component.inputs.map Port.toJson)) ∧
      Demands (Document.component? node?) component.toJson [.key "outputs"]
        (Json.list? Port.ofJson?) (.array (component.outputs.map Port.toJson)) := by
  have hnamed := component.areNamed
  obtain ⟨id, name, description, modifier, timestamp, version, inputs, outputs, implementation⟩ :=
    component
  constructor
  all_goals
    refine .field hnamed (by decide) (by simp [members]) (by simp)
      fun document found part hfields hpart _ hread => ?_
    rcases hfields with hfields | hfields <;>
      simp [Document.component?, hfields, hpart, Json.defaulted, hread]

theorem demands_implementation (component : Component) :
    Demands (Document.component? node?) component.toJson [.key "implementation"]
      (Document.implementation? node?) component.implementation.toJson := by
  have hnamed := component.areNamed
  have hnull := component.implementation.toJson_ne_null
  obtain ⟨id, name, description, modifier, timestamp, version, inputs, outputs, implementation⟩ :=
    component
  refine .field hnamed (by decide) (by simp [members]) hnull
    fun document found part hfields hpart _ hread => ?_
  rcases hfields with hfields | hfields <;>
    simp [Document.component?, hfields, hpart, Json.required, hread]

theorem PortAt.beside {component : Component} {place : List Step} {port : Port}
    (h : component.PortAt place port) : Beside "type" place := by
  cases h <;> exact ⟨_, _, rfl, by decide⟩

/-- A component demands the types of its own ports, whatever its nodes are read as. -/
theorem PortAt.demands_type {component : Component} {place : List Step} {port : Port}
    (h : component.PortAt place port) :
    Demands (Document.component? node?) component.toJson (place ++ [.key "type"])
      PortType.ofJson? (.string port.type.name) := by
  cases h with
  | input h =>
    have hitem := (List.getElem?_map ..).trans (congrArg (Option.map Port.toJson) h)
    exact (component.demands_ports.1.trans (.item hitem)).trans port.demands_type
  | output h =>
    have hitem := (List.getElem?_map ..).trans (congrArg (Option.map Port.toJson) h)
    exact (component.demands_ports.2.trans (.item hitem)).trans port.demands_type
  | @operand block key _ hblock h =>
    have hcondition : Demands (Document.implementation? node?) component.implementation.toJson
        [.key "expression"] Condition.ofJson? block.condition.toJson := by
      rw [hblock]
      exact Implementation.demands_of_conditional ⟨_, _, rfl, by decide⟩ block.demands_condition
    exact (component.demands_implementation.trans hcondition).trans (Condition.demands_operand h)

end Component

/-! ## Nodes -/

/-- What is written out in place is the record of a component, beside a tag. -/
theorem NodeRef.demands_component {β : Type} {ref : NodeRef} {child : Component}
    {place : List Step} {part? : Json → Option β} {part : Json}
    (hchild : ref.component? = some child) (hplace : Beside "type" place)
    (h : Demands (Document.component? node?) child.toJson place part? part) :
    Demands (Document.nodeRef? node?) ref.toJson place part? part := by
  cases ref with
  | inline component =>
    obtain rfl := Option.some.inj hchild
    refine .variant h hplace component.areNamed (by decide) fun document rest htagged hread => ?_
    rcases htagged with htagged | htagged <;> simp [Document.nodeRef?, htagged, hread]
  | latest _ | pinned _ _ => cases hchild

end Holders

theorem Node.demands_target (node : Node) (fuel : Nat) :
    Demands (Document.node? (fuel + 1)) node.toJson [.key "node"]
      (Document.nodeRef? (Document.node? fuel)) node.target.toJson := by
  obtain ⟨id, target⟩ := node
  have hnamed : List.Forall₂ IsNamed ["id", "node"]
      [Json.field "id" (.string id), Json.field "node" target.toJson] :=
    .cons (isNamed_field "id" _) (.cons (isNamed_field "node" _) .nil)
  refine .field hnamed (by decide) (.tail _ (.head _)) target.toJson_ne_null
    fun document found part hfields hpart _ hread => ?_
  rcases hfields with hfields | hfields <;>
    simp [Document.node?, hfields, hpart, Json.required, hread]

/-- A node demands what the component at it demands, however often its reader may descend. -/
theorem Node.demands_component {β : Type} {node : Node} {child : Component} {place : List Step}
    {part? : Json → Option β} {part : Json} (hchild : node.component? = some child)
    (hplace : Beside "type" place)
    (h : ∀ fuel, Demands (Document.component? (Document.node? fuel)) child.toJson place part? part)
    (fuel : Nat) : Demands (Document.node? fuel) node.toJson (.key "node" :: place) part? part := by
  have hdescends : ∀ fuel, Demands (Document.node? (fuel + 1)) node.toJson (.key "node" :: place)
      part? part := fun fuel =>
    (node.demands_target fuel).trans (NodeRef.demands_component hchild hplace (h fuel))
  cases fuel with
  | zero =>
    -- A reader that may not descend at all reads no node, whatever stands in it.
    exact ⟨(hdescends 0).stands, fun _ _ _ _ => rfl⟩
  | succ fuel => exact hdescends fuel

/-! ## Trees -/

namespace Component

theorem StandsAt.beside {component inner : Component} {outer place : List Step}
    (h : component.StandsAt outer inner) (hplace : Beside "type" place) :
    Beside "type" (outer ++ place) := by
  cases h with
  | here => exact hplace
  | deeper => exact ⟨_, _, rfl, by decide⟩

/-- What is demanded by a component somewhere in the tree is demanded by the root. -/
theorem StandsAt.demands {β : Type} {component inner : Component} {outer place : List Step}
    {part? : Json → Option β} {part : Json} (hstands : component.StandsAt outer inner)
    (hplace : Beside "type" place)
    (h : ∀ fuel, Demands (Document.component? (Document.node? fuel)) inner.toJson place part? part)
    (fuel : Nat) :
    Demands (Document.component? (Document.node? fuel)) component.toJson (outer ++ place) part?
      part := by
  -- For all fuel, as the reader has less of it for what stands at a node.
  induction hstands generalizing fuel with
  | here => exact h fuel
  | @deeper component child inner node outer deeper hnode hchild hinner ih =>
    have hcomponent := Node.demands_component hchild (hinner.beside hplace) (ih h) fuel
    have hbelow := (component.demands_implementation.trans
      (Implementation.demands_node hnode)).trans hcomponent
    simpa using hbelow

/-- **No unknown port type gets past the reader.** Whatever port is mentioned by a component in the
tree of another one has a place in the document of that one, where its type is written as a text.
Any other text there that is not the name of a port type makes the whole document unreadable,
whereas putting back the name that stands there leaves the document as it was. -/
theorem unknown_types_refused (component : Component) :
    (∀ inner port, component.Within inner ∧ inner.Mentions port ↔
        ∃ outer place, component.StandsAt outer inner ∧ inner.PortAt place port) ∧
      ∀ outer inner, component.StandsAt outer inner → ∀ place port, inner.PortAt place port →
        Json.at? (outer ++ place ++ [.key "type"]) component.toJson =
            some (.string port.type.name) ∧
          Json.replaceAt (.string port.type.name) (outer ++ place ++ [.key "type"])
            component.toJson = component.toJson ∧
          ∀ text, (∀ type : PortType, type.name ≠ text) →
            ofJson? (Json.replaceAt (.string text) (outer ++ place ++ [.key "type"])
              component.toJson) = none := by
  refine ⟨fun inner port => ?_, fun outer inner hstands place port hport => ?_⟩
  · rw [within_iff_standsAt, mentions_iff_portAt, exists_and_exists_comm]
  · have hdemands : ∀ fuel, Demands (Document.component? (Document.node? fuel)) component.toJson
        (outer ++ place ++ [.key "type"]) PortType.ofJson? (.string port.type.name) := by
      intro fuel
      rw [List.append_assoc]
      exact hstands.demands (hport.beside.append _) (fun fuel => hport.demands_type) fuel
    have hat := (hdemands 0).stands
    refine ⟨hat, Json.replaceAt_at? hat, fun text htext => ?_⟩
    exact (hdemands _).eq_none (by simp) (PortType.ofJson?_string htext)

/-- A conditional that compares the value at its input with a literal. -/
def comparison : Component :=
  { ofImplementation (.repeating 2) "comparison"
      (.conditional ⟨⟨"stored", .latest (.repeating 3)⟩, none,
        ⟨.literal "3", .lt, .data ⟨"limit", .parameter⟩⟩, [], []⟩) with
    inputs := [⟨"limit", .parameter⟩] }

/-- A map over a conditional. -/
def comparingMap : Component :=
  .ofImplementation (.repeating 1) "map" (.map ⟨⟨"each", .inline comparison⟩, [], []⟩)

/-- The document of the map is read, but not with an unknown type at the operand. -/
theorem comparingMap_integer_refused :
    (ofJson? comparingMap.toJson).isSome = true ∧
      ofJson? (Json.replaceAt (.string "integer")
        [.key "implementation", .key "node", .key "node", .key "implementation",
          .key "expression", .key "right", .key "type"] comparingMap.toJson) = none := by
  have hnode : comparingMap.implementation.NodeAt [.key "node"] ⟨"each", .inline comparison⟩ :=
    .map
  have hstands : comparingMap.StandsAt [.key "implementation", .key "node", .key "node"]
      comparison := .deeper hnode rfl (.here comparison)
  have hport : comparison.PortAt [.key "implementation", .key "expression", .key "right"]
      ⟨"limit", .parameter⟩ := .operand rfl (.right rfl)
  have hunknown : ∀ type : PortType, type.name ≠ "integer" := by
    intro type
    cases type <;> decide
  refine ⟨by decide +kernel, ?_⟩
  exact ((unknown_types_refused comparingMap).2 _ _ hstands _ _ hport).2.2 "integer" hunknown

end Component

end Pipeline
