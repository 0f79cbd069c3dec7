/-
Deliveries: what the connections into a node pass to its task.

A mapping or an edge takes a value from the port at its beginning and passes it in one
of three ways: as it is, one element after the other, or as an artifact. Which of them
it is depends on that port alone. The port at the end has to be declared, and is not
looked at any further.

To wire a connection appends what it delivers and changes nothing that the task had
before (`Task.Receives`). A task that is wired has therefore received what the
connections into its node deliver, the mappings first, and only that
(`Component.runsAt_of_template`). The one thing that cannot be appended is the list over
which a task fans out: where several are delivered, they are all the same.
-/
import Pipeline.Proofs.Acceptance
import Pipeline.Proofs.Interfaces

set_option autoImplicit false

namespace Pipeline

open Manifest (Artifact Dag Parameter Task Template)

/-! ## What is meant -/

/-- Where a value that is passed to a task comes from: an input of the composite, or an output of
another one of its tasks. -/
inductive Origin where
  | input (port : String)
  | output (task port : String)
  deriving DecidableEq

/-- How the value is named on a channel. -/
def Origin.placeholder : Origin → Channel → String
  | .input port, .parameter => Placeholder.inputParameter port
  | .input port, .artifact => Placeholder.inputArtifact port
  | .output task port, .parameter => Placeholder.taskParameter task port
  | .output task port, .artifact => Placeholder.taskArtifact task port

/-- How a value is passed to a task. -/
inductive Passing where
  /-- As a parameter. -/
  | whole
  /-- As a list of which the task is given one element after the other. -/
  | each
  | artifact
  deriving DecidableEq

/-- The channel on which a value is passed. -/
def Passing.channel : Passing → Channel
  | .whole | .each => .parameter
  | .artifact => .artifact

/-- What a connection passes to a task. -/
structure Delivery where
  passing : Passing
  origin : Origin
  /-- The input of the task. -/
  target : String
  deriving DecidableEq

namespace Delivery

/-- The parameter that the task is given. -/
def parameter? (delivery : Delivery) : Option Parameter :=
  match delivery.passing with
  | .whole => some (.withValue delivery.target (delivery.origin.placeholder .parameter))
  | .each => some (.withValue delivery.target Placeholder.item)
  | .artifact => none

/-- The artifact that the task is given. -/
def artifact? (delivery : Delivery) : Option Artifact :=
  match delivery.passing with
  | .artifact => some (.ofReference delivery.target (delivery.origin.placeholder .artifact))
  | .whole | .each => none

/-- The list over which the task fans out. -/
def list? (delivery : Delivery) : Option String :=
  match delivery.passing with
  | .each => some (delivery.origin.placeholder .parameter)
  | .whole | .artifact => none

/-- The input that is given a value on the channel. -/
def nameOn? (channel : Channel) (delivery : Delivery) : Option String :=
  if delivery.passing.channel = channel then some delivery.target else none

end Delivery

/-- How a value of a type is passed on, if it is. -/
def PortType.passing? : PortType → Option Passing
  | .parameter => some .whole
  | .parameterArray => some .each
  | .artifact => some .artifact
  | .volume | .envSecret => none

/-- How a component passes on an output of a type. A composite passes on the text of the list that it
gathered. -/
def Component.passing? (component : Component) (type : PortType) : Option Passing :=
  match type, component.implementation with
  | .parameterArray, .brick _ => some .each
  | .parameterArray, _ => some .whole
  | type, _ => type.passing?

/-- The component at the first node of an identifier. -/
def Graph.component? (graph : Graph) (id : String) : Option Component :=
  (graph.node? id).bind Node.component?

/-- What a mapping takes from an input of the composite. -/
def InputMapping.delivery? (composite : Component) (mapping : InputMapping) : Option Delivery :=
  (composite.input? mapping.source).bind fun port => port.type.passing?.map fun passing =>
    ⟨passing, .input mapping.source, mapping.target.port⟩

/-- What an edge takes from an output of a node. -/
def Edge.delivery? (graph : Graph) (edge : Edge) : Option Delivery :=
  (graph.component? edge.source.node).bind fun sibling =>
    (sibling.output? edge.source.port).bind fun port => (sibling.passing? port.type).map fun passing =>
      ⟨passing, .output edge.source.node edge.source.port, edge.target.port⟩

/-- What is delivered to a node, by the mappings into it and then by the edges. -/
def Component.deliveries (composite : Component) (id : String) : List Delivery :=
  (composite.wiring.inputMappings.filter (·.target.node = id)).filterMap
      (InputMapping.delivery? composite) ++
    (composite.wiring.incoming id).filterMap (Edge.delivery? composite.wiring)

/-- The task has received the deliveries, in order, and nothing else. -/
structure Manifest.Task.Receives (before : Task) (deliveries : List Delivery) (after : Task) :
    Prop where
  parameters : after.arguments.parameters =
    before.arguments.parameters ++ deliveries.filterMap Delivery.parameter?
  artifacts : after.arguments.artifacts =
    before.arguments.artifacts ++ deliveries.filterMap Delivery.artifact?
  list : ∀ items, after.withParam = some items ↔
    before.withParam = some items ∨ items ∈ deliveries.filterMap Delivery.list?

/-- The task calls the component at a node of a composite, waits for the nodes with an edge into the
one whose bindings the node is handed, and has received what is delivered to that one, all of it for
inputs that the component has. -/
structure Component.RunsAt (composite : Component) (claim : String × Node) (task : Task) : Prop where
  callee : ∃ child, claim.2.component? = some child ∧ task.template = child.id.text ∧
    ∀ delivery ∈ composite.deliveries claim.1, Port.Declared child.inputs delivery.target
  dependencies : task.dependencies = composite.wiring.dependencies claim.1
  parameters : task.arguments.parameters =
    (composite.deliveries claim.1).filterMap Delivery.parameter?
  artifacts : task.arguments.artifacts =
    (composite.deliveries claim.1).filterMap Delivery.artifact?
  list : ∀ items, task.withParam = some items ↔
    items ∈ (composite.deliveries claim.1).filterMap Delivery.list?

/-! ## Connections -/

theorem Delivery.nameOn?_eq_some {channel : Channel} {delivery : Delivery} {name : String} :
    delivery.nameOn? channel = some name ↔
      delivery.passing.channel = channel ∧ delivery.target = name := by
  rw [nameOn?]
  by_cases hchannel : delivery.passing.channel = channel <;> simp [hchannel]

/-- A value that is passed on is passed on the channel of its type. -/
theorem Component.map_channel_passing? (component : Component) (type : PortType) :
    (component.passing? type).map Passing.channel = type.channel? := by
  unfold passing?
  cases type with
  | parameterArray => cases component.implementation <;> rfl
  | parameter | artifact | volume | envSecret => rfl

theorem Graph.component?_eq_some {graph : Graph} {id : String} {child : Component} :
    graph.component? id = some child ↔ graph.component id = .ok child := by
  rw [component_eq_ok, component?, Option.bind_eq_some_iff]

namespace InputMapping

variable {composite : Component} {mapping : InputMapping}

/-- A mapping delivers on the channel of the input that it begins at. -/
theorem map_channel_delivery? (composite : Component) (mapping : InputMapping) :
    (mapping.delivery? composite).map (fun delivery => delivery.passing.channel) =
      Port.channelOf? composite.inputs mapping.source := by
  rw [delivery?, Port.channelOf?, Option.map_bind]
  refine Option.bind_congr fun port _ => ?_
  obtain ⟨name, type⟩ := port
  cases type <;> rfl

theorem ends_of_delivery {delivery : Delivery} (h : mapping.delivery? composite = some delivery) :
    delivery.origin = .input mapping.source ∧ delivery.target = mapping.target.port := by
  obtain ⟨port, -, h⟩ := Option.bind_eq_some_iff.1 h
  obtain ⟨passing, -, rfl⟩ := Option.map_eq_some_iff.1 h
  exact ⟨rfl, rfl⟩

end InputMapping

namespace Edge

variable {graph : Graph} {edge : Edge}

/-- An edge delivers on the channel of the output that it begins at. -/
theorem map_channel_delivery? {sibling : Component}
    (hsibling : graph.component? edge.source.node = some sibling) :
    (edge.delivery? graph).map (fun delivery => delivery.passing.channel) =
      Port.channelOf? sibling.outputs edge.source.port := by
  rw [delivery?, hsibling, Option.bind_some, Port.channelOf?, Option.map_bind]
  refine Option.bind_congr fun port _ => ?_
  rw [← sibling.map_channel_passing? port.type]
  exact Option.map_map _ _ _

theorem ends_of_delivery {delivery : Delivery} (h : edge.delivery? graph = some delivery) :
    (∃ sibling, graph.component? edge.source.node = some sibling) ∧
      delivery.origin = .output edge.source.node edge.source.port ∧
      delivery.target = edge.target.port := by
  obtain ⟨sibling, hsibling, h⟩ := Option.bind_eq_some_iff.1 h
  obtain ⟨port, -, h⟩ := Option.bind_eq_some_iff.1 h
  obtain ⟨passing, -, rfl⟩ := Option.map_eq_some_iff.1 h
  exact ⟨⟨sibling, hsibling⟩, rfl, rfl⟩

end Edge

theorem Component.mem_deliveries {composite : Component} {id : String} {delivery : Delivery} :
    delivery ∈ composite.deliveries id ↔
      (∃ mapping ∈ composite.wiring.inputMappings, mapping.target.node = id ∧
        mapping.delivery? composite = some delivery) ∨
      ∃ edge ∈ composite.wiring.edges, edge.target.node = id ∧
        edge.delivery? composite.wiring = some delivery := by
  simp only [deliveries, Graph.incoming, List.mem_append, List.mem_filterMap, List.mem_filter,
    decide_eq_true_eq, and_assoc]

/-! ## Wiring -/

namespace Manifest.Task.Receives

variable {before between after : Task} {deliveries more : List Delivery}

theorem refl (task : Task) : Receives task [] task where
  parameters := (List.append_nil _).symm
  artifacts := (List.append_nil _).symm
  list _ := (or_iff_left List.not_mem_nil).symm

theorem trans (hfirst : Receives before deliveries between) (hsecond : Receives between more after) :
    Receives before (deliveries ++ more) after where
  parameters := by
    rw [hsecond.parameters, hfirst.parameters, List.filterMap_append, List.append_assoc]
  artifacts := by
    rw [hsecond.artifacts, hfirst.artifacts, List.filterMap_append, List.append_assoc]
  list items := by
    rw [hsecond.list, hfirst.list, List.filterMap_append, List.mem_append, or_assoc]

theorem whole (task : Task) (origin : Origin) (target : String) :
    Receives task [⟨.whole, origin, target⟩]
      (task.passParameter target (origin.placeholder .parameter)) where
  parameters := rfl
  artifacts := (List.append_nil _).symm
  list _ := (or_iff_left List.not_mem_nil).symm

theorem artifact (task : Task) (origin : Origin) (target : String) :
    Receives task [⟨.artifact, origin, target⟩]
      (task.passArtifact target (origin.placeholder .artifact)) where
  parameters := (List.append_nil _).symm
  artifacts := rfl
  list _ := (or_iff_left List.not_mem_nil).symm

/-- A task that fans out already goes on only with the same list. -/
theorem each (task : Task) (origin : Origin) (target : String)
    (h : task.fanOut target (origin.placeholder .parameter) = .ok after) :
    Receives task [⟨.each, origin, target⟩] after := by
  unfold Task.fanOut at h
  by_cases hconflict : task.withParam.any (· ≠ origin.placeholder .parameter) = true
  · rw [if_pos hconflict] at h
    cases h
  · rw [if_neg hconflict] at h
    cases h
    refine ⟨rfl, (List.append_nil _).symm, fun items => ?_⟩
    show some (origin.placeholder .parameter) = some items ↔
      task.withParam = some items ∨ items ∈ [origin.placeholder .parameter]
    rw [List.mem_singleton, Option.some.injEq, eq_comm]
    refine ⟨.inr, ?_⟩
    rintro (hbefore | hitems)
    · simpa [hbefore] using hconflict
    · exact hitems

theorem wireInput {parent child : Component} {task : Task} {mapping : InputMapping}
    (h : task.wireInput parent child mapping = .ok after) :
    Receives task (mapping.delivery? parent).toList after := by
  obtain ⟨outer, houter, h⟩ := bind_eq_ok.1 h
  obtain ⟨inner, hinner, h⟩ := bind_eq_ok.1 h
  have hport := Component.input_eq_ok.1 houter
  have hsource : outer.name = mapping.source := key_of_find? hport
  have htarget : inner.name = mapping.target.port :=
    key_of_find? (Component.input_eq_ok.1 (inside_eq_ok.1 hinner))
  rw [hsource, htarget] at h
  have hdelivery : mapping.delivery? parent = outer.type.passing?.map fun passing =>
      ⟨passing, .input mapping.source, mapping.target.port⟩ := by
    rw [InputMapping.delivery?, hport, Option.bind_some]
  rw [hdelivery]
  cases htype : outer.type <;> rw [htype] at h
  case parameter =>
    cases h
    exact whole task (.input mapping.source) _
  case parameterArray => exact each task (.input mapping.source) _ h
  case artifact =>
    cases h
    exact artifact task (.input mapping.source) _
  case volume | envSecret =>
    cases h
    exact refl _

theorem wireEdge {graph : Graph} {child : Component} {task : Task} {edge : Edge}
    (h : task.wireEdge graph child edge = .ok after) :
    Receives task (edge.delivery? graph).toList after := by
  obtain ⟨sibling, hsibling, h⟩ := bind_eq_ok.1 h
  obtain ⟨output, houtput, h⟩ := bind_eq_ok.1 h
  obtain ⟨inner, hinner, h⟩ := bind_eq_ok.1 h
  have hport := Component.output_eq_ok.1 (inside_eq_ok.1 houtput)
  have hsource : output.name = edge.source.port := key_of_find? hport
  have htarget : inner.name = edge.target.port :=
    key_of_find? (Component.input_eq_ok.1 (inside_eq_ok.1 hinner))
  rw [hsource, htarget] at h
  have hdelivery : edge.delivery? graph = (sibling.passing? output.type).map fun passing =>
      ⟨passing, .output edge.source.node edge.source.port, edge.target.port⟩ := by
    rw [Edge.delivery?, Graph.component?_eq_some.2 hsibling, Option.bind_some, hport,
      Option.bind_some]
  rw [hdelivery]
  cases htype : output.type <;> rw [htype] at h
  case parameter =>
    cases h
    exact whole task (.output edge.source.node edge.source.port) _
  case parameterArray =>
    cases himplementation : sibling.implementation <;> rw [himplementation] at h
    case brick =>
      have hpassing : sibling.passing? .parameterArray = some .each := by
        simp only [Component.passing?, himplementation]
      rw [hpassing]
      exact each task (.output edge.source.node edge.source.port) _ h
    case graph | map | conditional | any =>
      have hpassing : sibling.passing? .parameterArray = some .whole := by
        simp only [Component.passing?, himplementation]
      rw [hpassing]
      cases h
      exact whole task (.output edge.source.node edge.source.port) _
  case artifact =>
    cases h
    exact artifact task (.output edge.source.node edge.source.port) _
  case volume =>
    cases h
    exact refl _
  case envSecret => cases h

/-- What every step of a fold delivers is received by the whole. -/
theorem foldlM {α : Type} {step : Task → α → Lowered Task} {deliver? : α → Option Delivery}
    (hstep : ∀ state value next, step state value = .ok next →
      Receives state (deliver? value).toList next)
    {values : List α} {task : Task} (h : values.foldlM step task = .ok after) :
    Receives task (values.filterMap deliver?) after := by
  induction values generalizing task with
  | nil =>
    obtain rfl := pure_eq_ok.1 h
    exact refl task
  | cons value values ih =>
    rw [List.foldlM_cons] at h
    obtain ⟨state, hstate, h⟩ := bind_eq_ok.1 h
    have hreceived := (hstep task value state hstate).trans (ih h)
    cases hvalue : deliver? value with
    | none =>
      rw [hvalue] at hreceived
      rwa [List.filterMap_cons_none hvalue]
    | some delivery =>
      rw [hvalue] at hreceived
      rwa [List.filterMap_cons_some hvalue]

theorem wireInputs {parent child : Component} {task : Task} {mappings : List InputMapping}
    (h : task.wireInputs parent child mappings = .ok after) :
    Receives task (mappings.filterMap (InputMapping.delivery? parent)) after := by
  rw [Task.wireInputs] at h
  exact foldlM (fun _ _ _ hstep => wireInput hstep) h

theorem wireEdges {graph : Graph} {child : Component} {task : Task} {edges : List Edge}
    (h : task.wireEdges graph child edges = .ok after) :
    Receives task (edges.filterMap (Edge.delivery? graph)) after := by
  rw [Task.wireEdges] at h
  exact foldlM (fun _ _ _ hstep => wireEdge hstep) h

end Manifest.Task.Receives

/-! ## Tasks -/

namespace Component

variable {component : Component} {claim : String × Node}

/-- A task that was made for the call of a component at a node, and has then received what is
delivered there. -/
theorem RunsAt.of_receives {child : Component} {called task : Task}
    (hchild : claim.2.component? = some child)
    (hdeclared : ∀ delivery ∈ component.deliveries claim.1,
      Port.Declared child.inputs delivery.target)
    (hcallee : called.template = child.id.text)
    (hdependencies : called.dependencies = component.wiring.dependencies claim.1)
    (hempty : called.arguments = .empty ∧ called.withParam = none) (hsame : called.SameCall task)
    (h : called.Receives (component.deliveries claim.1) task) : component.RunsAt claim task where
  callee := ⟨child, hchild, hsame.template.trans hcallee, hdeclared⟩
  dependencies := hsame.dependencies.trans hdependencies
  parameters := by
    rw [h.parameters, hempty.1]
    rfl
  artifacts := by
    rw [h.artifacts, hempty.1]
    rfl
  list items := by
    rw [h.list, hempty.2]
    exact or_iff_right nofun

/-- What mappings deliver is for inputs that the component has. -/
theorem declared_of_mappings {child : Component} {mappings : List InputMapping} {called task : Task}
    (h : called.wireInputs component child mappings = .ok task) {delivery : Delivery}
    (hdelivery : delivery ∈ mappings.filterMap (InputMapping.delivery? component)) :
    Port.Declared child.inputs delivery.target := by
  obtain ⟨mapping, hmapping, hdelivery⟩ := List.mem_filterMap.1 hdelivery
  rw [(InputMapping.ends_of_delivery hdelivery).2]
  exact (Task.declared_of_wireInputs h hmapping).2

/-- What edges deliver is for inputs that the component has. -/
theorem declared_of_edges {graph : Graph} {child : Component} {edges : List Edge}
    {called task : Task} (h : called.wireEdges graph child edges = .ok task) {delivery : Delivery}
    (hdelivery : delivery ∈ edges.filterMap (Edge.delivery? graph)) :
    Port.Declared child.inputs delivery.target := by
  obtain ⟨edge, hedge, hdelivery⟩ := List.mem_filterMap.1 hdelivery
  rw [(Edge.ends_of_delivery hdelivery).2.2]
  exact (Task.declared_of_wireEdges h hedge).2

/-- Without edges only the mappings into a node deliver something. -/
theorem deliveries_of_mappings {nodes : List Node} {inputs : List InputMapping}
    {outputs : List OutputMapping} (hwiring : component.wiring = ⟨nodes, [], inputs, outputs⟩)
    (id : String) :
    component.deliveries id =
      (inputs.filter (·.target.node = id)).filterMap (InputMapping.delivery? component) := by
  rw [deliveries, hwiring]
  exact List.append_nil _

end Component

theorem Graph.runsAt_of_template {graph : Graph} {component : Component} {template : Template}
    {dag : Dag} (hgraph : component.implementation = .graph graph)
    (h : graph.template component = .ok template) (hdag : template.dag = some dag) :
    List.Forall₂ component.RunsAt component.claimants dag.tasks := by
  obtain ⟨tasks, outputs, htasks, -, rfl⟩ := template_eq_ok.1 h
  obtain rfl := Option.some.inj hdag
  have hwiring : component.wiring = graph := Component.wiring_eq hgraph
  rw [Component.claimants, hgraph, Implementation.claimants, List.forall₂_map_left_iff]
  refine (mapM_eq_ok.1 htasks).imp fun node task htask => ?_
  obtain ⟨child, mapped, hchild, hmapped, hwired⟩ := task_eq_ok.1 htask
  have hsame := (Task.SameCall.wireInputs hmapped).trans (Task.SameCall.wireEdges hwired)
  have hreceived := (Task.Receives.wireInputs hmapped).trans (Task.Receives.wireEdges hwired)
  rw [← hwiring] at hsame hreceived
  refine .of_receives hchild (fun delivery hdelivery => ?_) rfl rfl ⟨rfl, rfl⟩ hsame hreceived
  rw [Component.deliveries, hwiring] at hdelivery
  rcases List.mem_append.1 hdelivery with hdelivery | hdelivery
  · exact Component.declared_of_mappings hmapped hdelivery
  · exact Component.declared_of_edges hwired hdelivery

/-- Every mapping of a map leads to its one node. -/
theorem MapBlock.runsAt_of_template {map : MapBlock} {component : Component} {settings : Settings}
    {template : Template} {dag : Dag} (hmap : component.implementation = .map map)
    (hwired : map.wiring.WellWired) (h : map.template component settings = .ok template)
    (hdag : template.dag = some dag) :
    List.Forall₂ component.RunsAt component.claimants dag.tasks := by
  obtain ⟨child, task, outputs, hchild, hmapped, -, rfl⟩ := template_eq_ok.1 h
  obtain rfl := Option.some.inj hdag
  have hwiring : component.wiring = map.wiring := Component.wiring_eq hmap
  have hown : map.inputMappings.filter (·.target.node = map.node.id) = map.inputMappings := by
    rw [List.filter_eq_self]
    intro mapping hmapping
    obtain ⟨node, hnode, hid⟩ := hwired.known_input hmapping
    rw [List.mem_singleton.1 hnode] at hid
    exact decide_eq_true hid.symm
  have hdeliveries := Component.deliveries_of_mappings hwiring map.node.id
  rw [hown] at hdeliveries
  have hreceived := Task.Receives.wireInputs hmapped
  rw [← hdeliveries] at hreceived
  rw [Component.claimants, hmap]
  refine .cons (.of_receives hchild (fun delivery hdelivery => ?_) rfl ?_ ⟨rfl, rfl⟩
    (.wireInputs hmapped) hreceived) .nil
  · rw [hdeliveries] at hdelivery
    exact Component.declared_of_mappings hmapped hdelivery
  · rw [hwiring]
    rfl

/-- The task of the second branch is given what is delivered to the first one. -/
theorem Conditional.runsAt_of_template {conditional : Conditional} {component : Component}
    {settings : Settings} {template : Template} {dag : Dag}
    (hconditional : component.implementation = .conditional conditional)
    (h : conditional.template component settings = .ok template) (hdag : template.dag = some dag) :
    List.Forall₂ component.RunsAt component.claimants dag.tasks := by
  obtain ⟨whenTrue, whenFalse, guardText, wired, outputs, -, hwhenTrue, hwhenFalse, -, hwired, -,
    rfl⟩ := template_eq_ok.1 h
  obtain rfl := Option.some.inj hdag
  have hwiring : component.wiring = conditional.wiring := Component.wiring_eq hconditional
  have hreceived := Task.Receives.wireInputs hwired
  rw [← Component.deliveries_of_mappings hwiring] at hreceived
  have hdeclared : ∀ delivery ∈ component.deliveries conditional.nodeTrue.id,
      Port.Declared whenTrue.inputs delivery.target := by
    intro delivery hdelivery
    rw [Component.deliveries_of_mappings hwiring] at hdelivery
    exact Component.declared_of_mappings hwired hdelivery
  have hcalled : component.RunsAt (conditional.nodeTrue.id, conditional.nodeTrue) wired :=
    .of_receives hwhenTrue hdeclared rfl (by rw [hwiring]; rfl) ⟨rfl, rfl⟩ (.wireInputs hwired)
      hreceived
  -- Neither guards nor names matter to what is received.
  have hfirst : component.RunsAt (conditional.nodeTrue.id, conditional.nodeTrue)
      { wired with runsWhen := some guardText } :=
    ⟨hcalled.callee, hcalled.dependencies, hcalled.parameters, hcalled.artifacts, hcalled.list⟩
  rw [Component.claimants, hconditional, Implementation.claimants, Conditional.branches]
  rcases componentFalse_eq_ok.1 hwhenFalse with
    ⟨hnode, rfl⟩ | ⟨nodeFalse, child, hnode, hchild, hinputs, -, rfl⟩
  · rw [hnode]
    exact .cons hfirst .nil
  · have hsecond : ∀ delivery ∈ component.deliveries conditional.nodeTrue.id,
        Port.Declared child.inputs delivery.target := by
      intro delivery hdelivery
      obtain ⟨type, htype⟩ := hdeclared delivery hdelivery
      exact ⟨type, (Port.sameSet_iff.1 hinputs _).1 htype⟩
    rw [hnode]
    exact .cons hfirst (.cons ⟨⟨child, hchild, rfl, hsecond⟩, hcalled.dependencies,
      hcalled.parameters, hcalled.artifacts, hcalled.list⟩ .nil)

namespace Component

variable {component : Component} {settings : Settings} {scopes : Scopes} {template : Template}
variable {dag : Dag} {claim : String × Node} {task : Task} {channel : Channel}

/-- **The tasks of a composite.** Each node, in order, has a task that calls the component at it and
has received what is delivered there, and there are no other tasks. -/
theorem runsAt_of_template (hwired : component.wiring.WellWired)
    (h : component.template settings scopes = .ok template) (hdag : template.dag = some dag) :
    List.Forall₂ component.RunsAt component.claimants dag.tasks := by
  unfold Component.template at h
  cases himplementation : component.implementation <;> rw [himplementation] at h
  case brick block =>
    obtain ⟨_, _, _, -, -, -, rfl⟩ := Brick.template_eq_ok.1 h
    cases hdag
  case graph block => exact block.runsAt_of_template himplementation h hdag
  case map block =>
    rw [wiring, himplementation] at hwired
    exact block.runsAt_of_template himplementation hwired h hdag
  case conditional block => exact block.runsAt_of_template himplementation h hdag
  case any => cases h

/-- The names under which a task is given values on a channel are the targets of what is delivered on
it, in order. -/
theorem RunsAt.names (h : component.RunsAt claim task) (channel : Channel) :
    task.arguments.names channel =
      (component.deliveries claim.1).filterMap (Delivery.nameOn? channel) := by
  cases channel with
  | parameter =>
    rw [Manifest.Arguments.names, h.parameters, List.map_filterMap]
    refine List.filterMap_congr fun delivery _ => ?_
    obtain ⟨passing, origin, target⟩ := delivery
    cases passing <;> rfl
  | artifact =>
    rw [Manifest.Arguments.names, h.artifacts, List.map_filterMap]
    refine List.filterMap_congr fun delivery _ => ?_
    obtain ⟨passing, origin, target⟩ := delivery
    cases passing <;> rfl

end Component

end Pipeline
