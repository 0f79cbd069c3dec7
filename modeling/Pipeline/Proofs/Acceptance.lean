/-
Acceptance: what a tree is like that has been lowered.

No check goes over all of it. Ports are asked for where they are needed: by the task
that is wired, by the output that is connected, by the guard and by the arguments of
a container; and each of these steps sees only its own part of the connections, the
task of a node those into the node, a conditional those of its first branch. That
together they see everything is due to the validation and to the check of a
conditional's mappings: every connection ends at some node, and what does not go
through the first branch stands beside something that does.

All components are visited, so what is said here is said about one of them that has
a template (`Component.accepted_of_template`), and then about the tree.
-/
import Pipeline.Proofs.CallGraph
import Pipeline.Proofs.ScopeReads
import Pipeline.Proofs.WellWired

set_option autoImplicit false

namespace Pipeline

open Manifest (Arguments Task Template)

/-! ## What is meant -/

/-- One of the ports has the name. -/
def Port.Declared (ports : List Port) (name : String) : Prop :=
  ∃ type, ⟨name, type⟩ ∈ ports

/-- One of the ports has the name and carries no secret. -/
def Port.DeclaredOpen (ports : List Port) (name : String) : Prop :=
  ∃ type, ⟨name, type⟩ ∈ ports ∧ type ≠ .envSecret

/-- The node of the identifier holds the component. -/
def Graph.Holds (graph : Graph) (id : String) (child : Component) : Prop :=
  ∃ node, graph.node? id = some node ∧ node.component? = some child

/-- The connections of a scope begin and end at declared ports, and none that leads from a node
carries a secret. The outer ends of mappings are ports of the composite. -/
structure Graph.Connects (graph : Graph) (composite : Component) : Prop where
  edges : ∀ edge ∈ graph.edges, ∃ source target : Component,
    graph.Holds edge.source.node source ∧ graph.Holds edge.target.node target ∧
      Port.DeclaredOpen source.outputs edge.source.port ∧
      Port.Declared target.inputs edge.target.port
  inputs : ∀ mapping ∈ graph.inputMappings,
    Port.Declared composite.inputs mapping.source ∧
      ∃ child : Component, graph.Holds mapping.target.node child ∧
        Port.Declared child.inputs mapping.target.port
  outputs : ∀ mapping ∈ graph.outputMappings, Port.DeclaredOpen composite.outputs mapping.target

/-- The branches of a conditional have the same ports, its mappings go through the first one, and
its operands are strings among the ports that are given. -/
structure Conditional.IsBalanced (conditional : Conditional) (ports : List Port) : Prop where
  branches : ∀ nodeFalse, conditional.nodeFalse = some nodeFalse →
    ∃ whenTrue whenFalse : Component, conditional.nodeTrue.component? = some whenTrue ∧
      nodeFalse.component? = some whenFalse ∧
      (∀ port, port ∈ whenTrue.inputs ↔ port ∈ whenFalse.inputs) ∧
      ∀ port, port ∈ whenTrue.outputs ↔ port ∈ whenFalse.outputs
  inputs : ∀ mapping ∈ conditional.inputMappings,
    mapping.target.node = conditional.nodeTrue.id
  outputs : ∀ mapping ∈ conditional.outputMappings, ∃ other ∈ conditional.outputMappings,
    other.source.node = conditional.nodeTrue.id ∧ other.target = mapping.target
  operands : ∀ port,
    conditional.condition.left = .data port ∨ conditional.condition.right = .data port →
      ⟨port.name, .parameter⟩ ∈ ports

/-- The arguments of a brick are inputs of its component, and the outputs that a task can pass on
are found in files. -/
structure Brick.Serves (brick : Brick) (component : Component) : Prop where
  arguments : ∀ argument ∈ brick.args, ∀ name rendering, argument.source = .port name rendering →
    Port.Declared component.inputs name
  results : ∀ port ∈ component.outputs,
    port.type ∈ [.parameter, .parameterArray, .artifact] →
      ∃ path, brick.result? port.name = some ⟨port.name, .file path⟩

/-- What a component is like that has a template. -/
structure Component.IsAccepted (component : Component) : Prop where
  inline : ∀ node ∈ component.children, ∃ child, node.component? = some child
  specified : component.implementation ≠ .any
  connects : component.wiring.Connects component
  balanced : ∀ conditional, component.implementation = .conditional conditional →
    conditional.IsBalanced component.inputs
  serves : ∀ brick, component.implementation = .brick brick → brick.Serves component

/-! ## Ports -/

theorem Port.mem_of_find? {ports : List Port} {name : String} {port : Port}
    (h : Port.find? ports name = some port) : ⟨name, port.type⟩ ∈ ports := by
  have hname : port.name = name := key_of_find? h
  rw [← hname]
  exact List.mem_of_find?_eq_some h

theorem Component.mem_of_input {component : Component} {name : String} {port : Port}
    (h : component.input name = .ok port) : ⟨name, port.type⟩ ∈ component.inputs :=
  Port.mem_of_find? (input_eq_ok.1 h)

theorem Component.mem_of_output {component : Component} {name : String} {port : Port}
    (h : component.output name = .ok port) : ⟨name, port.type⟩ ∈ component.outputs :=
  Port.mem_of_find? (output_eq_ok.1 h)

/-! ## Nodes -/

namespace Graph

variable {graph : Graph} {id : String}

/-- Where all nodes are inline, each node that is there holds a component, which is that of one of
the nodes of the identifier. -/
theorem exists_holds (hknown : ∃ node ∈ graph.nodes, node.id = id)
    (hinline : ∀ node ∈ graph.nodes, ∃ child, node.component? = some child) :
    ∃ node ∈ graph.nodes, node.id = id ∧
      ∃ child, node.component? = some child ∧ graph.Holds id child := by
  obtain ⟨node, hnode, hfind⟩ := exists_find? hknown
  obtain ⟨child, hchild⟩ := hinline node hnode
  exact ⟨node, hnode, key_of_find? hfind, child, hchild, node, hfind, hchild⟩

end Graph

/-! ## Wiring -/

namespace Manifest.Task

variable {task after : Task} {parent child : Component} {graph : Graph}

/-- A mapping is wired between declared inputs. -/
theorem declared_of_wireInputs {mappings : List InputMapping}
    (h : task.wireInputs parent child mappings = .ok after) {mapping : InputMapping}
    (hmapping : mapping ∈ mappings) :
    Port.Declared parent.inputs mapping.source ∧
      Port.Declared child.inputs mapping.target.port := by
  obtain ⟨state, next, hstep⟩ := exists_step_of_foldlM h hmapping
  obtain ⟨outer, houter, hstep⟩ := bind_eq_ok.1 hstep
  obtain ⟨inner, hinner, -⟩ := bind_eq_ok.1 hstep
  exact ⟨⟨_, Component.mem_of_input houter⟩, _, Component.mem_of_input (inside_eq_ok.1 hinner)⟩

/-- An edge is wired from a declared output of a sibling, which carries no secret, to a declared
input. -/
theorem declared_of_wireEdges {edges : List Edge}
    (h : task.wireEdges graph child edges = .ok after) {edge : Edge} (hedge : edge ∈ edges) :
    (∃ sibling : Component, graph.Holds edge.source.node sibling ∧
      Port.DeclaredOpen sibling.outputs edge.source.port) ∧
      Port.Declared child.inputs edge.target.port := by
  obtain ⟨state, next, hstep⟩ := exists_step_of_foldlM h hedge
  obtain ⟨sibling, hsibling, hstep⟩ := bind_eq_ok.1 hstep
  obtain ⟨output, houtput, hstep⟩ := bind_eq_ok.1 hstep
  obtain ⟨inner, hinner, hstep⟩ := bind_eq_ok.1 hstep
  have hopen : output.type ≠ .envSecret := by
    intro htype
    rw [htype] at hstep
    cases hstep
  have hmem := Component.mem_of_output (inside_eq_ok.1 houtput)
  exact ⟨⟨sibling, Graph.component_eq_ok.1 hsibling, output.type, hmem, hopen⟩,
    inner.type, Component.mem_of_input (inside_eq_ok.1 hinner)⟩

end Manifest.Task

/-- An output is connected when it is declared and carries no secret. -/
theorem Component.declaredOpen_of_connectOutputs {component : Component}
    {source : OutputMapping → OutputSource} {mappings : List OutputMapping} {outputs : Arguments}
    (h : component.connectOutputs source mappings = .ok outputs) {mapping : OutputMapping}
    (hmapping : mapping ∈ mappings) : Port.DeclaredOpen component.outputs mapping.target := by
  obtain ⟨state, next, hstep⟩ := exists_step_of_foldlM h hmapping
  obtain ⟨port, hport, hstep⟩ := bind_eq_ok.1 hstep
  have hopen : port.type ≠ .envSecret := by
    intro htype
    rw [htype] at hstep
    cases hstep
  exact ⟨port.type, mem_of_output hport, hopen⟩

/-! ## Graphs -/

namespace Graph

variable {graph : Graph} {component : Component} {template : Template}

theorem exists_task (h : graph.template component = .ok template) {node : Node}
    (hnode : node ∈ graph.nodes) : ∃ task, graph.task component node = .ok task := by
  obtain ⟨tasks, _, htasks, -⟩ := template_eq_ok.1 h
  obtain ⟨task, -, htask⟩ := exists_result htasks hnode
  exact ⟨task, htask⟩

theorem inline_of_template (h : graph.template component = .ok template) :
    ∀ node ∈ graph.nodes, ∃ child, node.component? = some child := by
  intro node hnode
  obtain ⟨task, htask⟩ := exists_task h hnode
  obtain ⟨child, _, hchild, -⟩ := task_eq_ok.1 htask
  exact ⟨child, hchild⟩

/-- Every connection into a node is seen by the task of the node. -/
theorem connects_of_template (hwired : graph.WellWired)
    (h : graph.template component = .ok template) : graph.Connects component where
  edges edge hedge := by
    obtain ⟨node, hnode, hid, target, htarget, hholds⟩ :=
      exists_holds (hwired.known_target hedge) (inline_of_template h)
    obtain ⟨task, htask⟩ := exists_task h hnode
    obtain ⟨child, _, hchild, -, hwires⟩ := task_eq_ok.1 htask
    obtain rfl := Option.some.inj (htarget.symm.trans hchild)
    have hincoming : edge ∈ graph.incoming node.id :=
      List.mem_filter.2 ⟨hedge, decide_eq_true hid.symm⟩
    obtain ⟨⟨source, hsource, hopen⟩, hdeclared⟩ := Task.declared_of_wireEdges hwires hincoming
    exact ⟨source, target, hsource, hholds, hopen, hdeclared⟩
  inputs mapping hmapping := by
    obtain ⟨node, hnode, hid, target, htarget, hholds⟩ :=
      exists_holds (hwired.known_input hmapping) (inline_of_template h)
    obtain ⟨task, htask⟩ := exists_task h hnode
    obtain ⟨child, _, hchild, hmapped, -⟩ := task_eq_ok.1 htask
    obtain rfl := Option.some.inj (htarget.symm.trans hchild)
    have hown : mapping ∈ graph.inputMappings.filter (·.target.node = node.id) :=
      List.mem_filter.2 ⟨hmapping, decide_eq_true hid.symm⟩
    obtain ⟨houter, hinner⟩ := Task.declared_of_wireInputs hmapped hown
    exact ⟨houter, target, hholds, hinner⟩
  outputs mapping hmapping := by
    obtain ⟨_, outputs, -, houtputs, -⟩ := template_eq_ok.1 h
    exact component.declaredOpen_of_connectOutputs houtputs hmapping

end Graph

/-! ## Maps -/

namespace MapBlock

variable {map : MapBlock} {component : Component} {settings : Settings} {template : Template}

theorem inline_of_template (h : map.template component settings = .ok template) :
    ∃ child, map.node.component? = some child := by
  obtain ⟨child, _, _, hchild, -⟩ := template_eq_ok.1 h
  exact ⟨child, hchild⟩

/-- Every mapping is seen by the one task. -/
theorem connects_of_template (hwired : map.wiring.WellWired)
    (h : map.template component settings = .ok template) : map.wiring.Connects component := by
  obtain ⟨child, task, outputs, hchild, hwires, houtputs, -⟩ := template_eq_ok.1 h
  have hinline : ∀ node ∈ map.wiring.nodes, node.component? = some child := by
    intro node hnode
    rwa [List.mem_singleton.1 hnode]
  refine ⟨fun _ hedge => absurd hedge List.not_mem_nil, fun mapping hmapping => ?_,
    fun mapping hmapping => component.declaredOpen_of_connectOutputs houtputs hmapping⟩
  obtain ⟨node, hnode, -, target, htarget, hholds⟩ :=
    Graph.exists_holds (hwired.known_input hmapping) fun node hnode => ⟨child, hinline node hnode⟩
  obtain rfl := Option.some.inj (htarget.symm.trans (hinline node hnode))
  obtain ⟨houter, hinner⟩ := Task.declared_of_wireInputs hwires hmapping
  exact ⟨houter, target, hholds, hinner⟩

end MapBlock

/-! ## Conditionals -/

theorem Port.sameSet_iff {left right : List Port} :
    Port.sameSet left right = true ↔ ∀ port, port ∈ left ↔ port ∈ right := by
  rw [Port.sameSet, Bool.and_eq_true, List.all_eq_true, List.all_eq_true]
  simp only [decide_eq_true_eq]
  constructor
  · rintro ⟨hleft, hright⟩ port
    exact ⟨hleft port, hright port⟩
  · intro h
    exact ⟨fun port => (h port).1, fun port => (h port).2⟩

/-- The input of an operand is the first one of its name and holds one string. -/
theorem Operand.comparable_eq_ok {port declared : Port} {inputs : List Port} :
    comparable port inputs = .ok declared ↔
      Port.find? inputs port.name = some declared ∧ declared.type = .parameter := by
  rw [comparable]
  cases hfind : Port.find? inputs port.name with
  | none => simp [fault]
  | some found =>
    by_cases htype : found.type = .parameter
    · simp only [if_pos htype, Except.ok.injEq, Option.some.injEq]
      constructor
      · rintro rfl
        exact ⟨rfl, htype⟩
      · rintro ⟨rfl, -⟩
        rfl
    · simp only [if_neg htype, Option.some.injEq]
      constructor
      · intro h
        cases h
      · rintro ⟨rfl, hdeclared⟩
        exact absurd hdeclared htype

/-- The port of an operand that is shown in a guard is a string among the inputs. -/
theorem Operand.mem_of_guardText {port : Port} {inputs : List Port} {text : String}
    (h : (Operand.data port).guardText inputs = .ok text) : ⟨port.name, .parameter⟩ ∈ inputs := by
  obtain ⟨declared, hdeclared, -⟩ := bind_eq_ok.1 h
  obtain ⟨hfind, htype⟩ := comparable_eq_ok.1 hdeclared
  have hmem := Port.mem_of_find? hfind
  rwa [htype] at hmem

namespace Conditional

variable {conditional : Conditional} {component : Component} {settings : Settings}
variable {template : Template}

/-- A second branch, if there is one, is inline and has the ports of the first one. -/
theorem exists_whenFalse {whenTrue : Component} {found : Option Component}
    (h : conditional.componentFalse whenTrue = .ok found) {nodeFalse : Node}
    (hnode : conditional.nodeFalse = some nodeFalse) :
    ∃ whenFalse : Component, nodeFalse.component? = some whenFalse ∧
      (∀ port, port ∈ whenTrue.inputs ↔ port ∈ whenFalse.inputs) ∧
      ∀ port, port ∈ whenTrue.outputs ↔ port ∈ whenFalse.outputs := by
  rcases componentFalse_eq_ok.1 h with
    ⟨hnone, -⟩ | ⟨second, whenFalse, hsecond, hwhenFalse, hinputs, houtputs, -⟩
  · rw [hnone] at hnode
    cases hnode
  · obtain rfl := Option.some.inj (hsecond.symm.trans hnode)
    exact ⟨whenFalse, hwhenFalse, Port.sameSet_iff.1 hinputs, Port.sameSet_iff.1 houtputs⟩

/-- Every output mapping has one beside it from the first branch, which may be itself. -/
theorem exists_mapping_true (h : conditional.checkMappings = .ok ()) {mapping : OutputMapping}
    (hmapping : mapping ∈ conditional.outputMappings) :
    ∃ other ∈ conditional.outputMappings, other.source.node = conditional.nodeTrue.id ∧
      other.target = mapping.target := by
  by_cases htrue : mapping.source.node = conditional.nodeTrue.id
  · exact ⟨mapping, hmapping, htrue, rfl⟩
  · exact (checkMappings_eq_ok.1 h).2 mapping hmapping htrue

theorem inline_of_template (h : conditional.template component settings = .ok template) :
    ∀ node ∈ conditional.branches, ∃ child, node.component? = some child := by
  obtain ⟨whenTrue, _, _, _, _, -, hwhenTrue, hsecond, -⟩ := template_eq_ok.1 h
  intro node hnode
  rcases List.mem_cons.1 hnode with rfl | hnode
  · exact ⟨whenTrue, hwhenTrue⟩
  · obtain ⟨whenFalse, hwhenFalse, -⟩ := exists_whenFalse hsecond (Option.mem_toList.1 hnode)
    exact ⟨whenFalse, hwhenFalse⟩

theorem isBalanced_of_template (h : conditional.template component settings = .ok template) :
    conditional.IsBalanced component.inputs := by
  obtain ⟨whenTrue, _, _, _, _, hmappings, hwhenTrue, hsecond, hguard, -⟩ := template_eq_ok.1 h
  refine ⟨fun nodeFalse hnode => ?_, (checkMappings_eq_ok.1 hmappings).1,
    fun mapping hmapping => exists_mapping_true hmappings hmapping, fun port hport => ?_⟩
  · obtain ⟨whenFalse, hwhenFalse, hports⟩ := exists_whenFalse hsecond hnode
    exact ⟨whenTrue, whenFalse, hwhenTrue, hwhenFalse, hports⟩
  · obtain ⟨left, hleft, hguard⟩ := bind_eq_ok.1 hguard
    obtain ⟨right, hright, -⟩ := bind_eq_ok.1 hguard
    rcases hport with hport | hport
    · rw [hport] at hleft
      exact Operand.mem_of_guardText hleft
    · rw [hport] at hright
      exact Operand.mem_of_guardText hright

/-- The task of the first branch sees all mappings into the conditional, and its outputs are those
of all mappings out of it. -/
theorem connects_of_template (h : conditional.template component settings = .ok template) :
    conditional.wiring.Connects component := by
  obtain ⟨whenTrue, _, _, _, outputs, hmappings, hwhenTrue, -, -, hwired, houtputs, -⟩ :=
    template_eq_ok.1 h
  have hholds : conditional.wiring.Holds conditional.nodeTrue.id whenTrue :=
    ⟨conditional.nodeTrue, List.find?_cons_of_pos (decide_eq_true rfl), hwhenTrue⟩
  refine ⟨fun _ hedge => absurd hedge List.not_mem_nil, fun mapping hmapping => ?_,
    fun mapping hmapping => ?_⟩
  · have hnode := (checkMappings_eq_ok.1 hmappings).1 mapping hmapping
    obtain ⟨houter, hinner⟩ := Task.declared_of_wireInputs hwired
      (List.mem_filter.2 ⟨hmapping, decide_eq_true hnode⟩)
    rw [← hnode] at hholds
    exact ⟨houter, whenTrue, hholds, hinner⟩
  · obtain ⟨other, hother, hnode, htarget⟩ := exists_mapping_true hmappings hmapping
    have hsome : ¬ conditional.outputMappings.isEmpty = true := by
      rw [List.isEmpty_iff]
      exact List.ne_nil_of_mem hother
    rw [Conditional.outputs, if_neg hsome] at houtputs
    obtain ⟨expression, -, houtputs⟩ := bind_eq_ok.1 houtputs
    rw [← htarget]
    exact component.declaredOpen_of_connectOutputs houtputs
      (List.mem_filter.2 ⟨hother, decide_eq_true hnode⟩)

end Conditional

/-! ## Bricks -/

/-- An argument is rendered when its port is declared. -/
theorem Argument.declared_of_render {argument : Argument} {component : Component}
    {volumes : VolumeScope} {rendered : RenderedArgument}
    (h : argument.render component volumes = .ok rendered) {name : String}
    {override : Option Rendering} (hsource : argument.source = .port name override) :
    Port.Declared component.inputs name := by
  unfold render at h
  rw [hsource] at h
  obtain ⟨port, hport, -⟩ := bind_eq_ok.1 h
  exact ⟨port.type, Component.mem_of_input hport⟩

namespace Brick

variable {brick : Brick}

theorem resultFile_eq_ok {port : Port} {path : String} (h : brick.resultFile port = .ok path) :
    brick.result? port.name = some ⟨port.name, .file path⟩ := by
  rw [resultFile] at h
  cases hresult : brick.result? port.name with
  | none =>
    rw [hresult] at h
    cases h
  | some result =>
    obtain ⟨name, source⟩ := result
    have hname : name = port.name := key_of_find? hresult
    rw [hresult] at h
    cases source with
    | file found =>
      obtain rfl : found = path := Except.ok.inj h
      rw [hname]
    | volume input => cases h

/-- Each of the outputs that a task can pass on has a file. -/
theorem exists_file_of_outputInterface {ports : List Port} {outputs : Arguments}
    (h : brick.outputInterface ports = .ok outputs) {port : Port} (hport : port ∈ ports)
    (htype : port.type ∈ [.parameter, .parameterArray, .artifact]) :
    ∃ path, brick.result? port.name = some ⟨port.name, .file path⟩ := by
  induction ports generalizing outputs with
  | nil => cases hport
  | cons first ports ih =>
    rw [outputInterface] at h
    -- A port that is passed over has another type; all others ask for their file first.
    have hparts : (first.type ∈ [.parameter, .parameterArray, .artifact] →
        ∃ path, brick.resultFile first = .ok path) ∧
        ∃ rest, brick.outputInterface ports = .ok rest := by
      cases hfirst : first.type <;> rw [hfirst] at h
      case volume | envSecret => exact ⟨fun hmem => absurd hmem (by decide), outputs, h⟩
      case parameter | parameterArray | artifact =>
        obtain ⟨path, hpath, h⟩ := bind_eq_ok.1 h
        obtain ⟨rest, hrest, -⟩ := bind_eq_ok.1 h
        exact ⟨fun _ => ⟨path, hpath⟩, rest, hrest⟩
    obtain ⟨hfile, rest, hrest⟩ := hparts
    rcases List.mem_cons.1 hport with rfl | hport
    · obtain ⟨path, hpath⟩ := hfile htype
      exact ⟨path, resultFile_eq_ok hpath⟩
    · exact ih hrest hport

theorem serves_of_template {component : Component} {secrets : SecretScope} {volumes : VolumeScope}
    {root : String} {template : Template}
    (h : brick.template component secrets volumes root = .ok template) :
    brick.Serves component := by
  obtain ⟨rendered, vars, outputs, hrendered, -, houtputs, -⟩ := template_eq_ok.1 h
  refine ⟨fun argument hargument name rendering hsource => ?_, fun port hport htype => ?_⟩
  · obtain ⟨result, -, hresult⟩ := exists_result hrendered hargument
    exact argument.declared_of_render hresult hsource
  · exact exists_file_of_outputInterface houtputs hport htype

end Brick

/-! ## Components -/

namespace Component

/-- A brick has no connections. -/
theorem connects_empty (component : Component) : Graph.empty.Connects component where
  edges _ hedge := absurd hedge List.not_mem_nil
  inputs _ hmapping := absurd hmapping List.not_mem_nil
  outputs _ hmapping := absurd hmapping List.not_mem_nil

variable {component : Component} {settings : Settings} {scopes : Scopes}

theorem inline_of_template {template : Template}
    (h : component.template settings scopes = .ok template) :
    ∀ node ∈ component.children, ∃ child, node.component? = some child := by
  unfold Component.template at h
  unfold children
  cases himplementation : component.implementation <;> rw [himplementation] at h
  case brick block => exact fun _ hnode => absurd hnode List.not_mem_nil
  case graph block => exact block.inline_of_template h
  case map block =>
    intro node hnode
    rw [List.mem_singleton.1 hnode]
    exact block.inline_of_template h
  case conditional block => exact block.inline_of_template h
  case any => cases h

theorem connects_of_template {template : Template} (hwired : component.wiring.WellWired)
    (h : component.template settings scopes = .ok template) :
    component.wiring.Connects component := by
  unfold Component.template at h
  unfold wiring at hwired ⊢
  cases himplementation : component.implementation <;> rw [himplementation] at h hwired
  case brick block => exact component.connects_empty
  case graph block => exact block.connects_of_template hwired h
  case map block => exact block.connects_of_template hwired h
  case conditional block => exact block.connects_of_template h
  case any => cases h

/-- A component whose connections end at its own nodes is accepted when it has a template. -/
theorem isAccepted_of_template {template : Template} (hwired : component.wiring.WellWired)
    (h : component.template settings scopes = .ok template) : component.IsAccepted := by
  refine ⟨inline_of_template h, fun hany => ?_, connects_of_template hwired h,
    fun conditional himplementation => ?_, fun brick himplementation => ?_⟩
  · rw [Component.template, hany] at h
    cases h
  · rw [Component.template, himplementation] at h
    exact conditional.isBalanced_of_template h
  · rw [Component.template, himplementation] at h
    exact brick.serves_of_template h

/-- **What is lowered is sound.** A tree that is lowered passes its validation, and every component
in it is accepted: its nodes are inline, its implementation is given, its connections join declared
ports without carrying a secret out of a node, the branches of a conditional have the same ports and
its mappings go through the first of them, its operands are strings among the inputs, and a brick
has an input for every argument and a file for every output that a task can pass on. -/
theorem accepted_of_templates {templates : List Template}
    (hok : component.templates settings scopes = .ok templates) :
    component.validate = .ok () ∧ ∀ inner, component.Within inner → inner.IsAccepted := by
  have hvalid := valid_of_templates hok
  refine ⟨hvalid, fun inner hinner => ?_⟩
  obtain ⟨repeats, hrepeats, -⟩ := templates_eq_ok hok
  obtain ⟨narrowed, hreaches⟩ := Visit.exists_reaches hrepeats hinner
  obtain ⟨template, htemplate⟩ := hreaches.exists_template hrepeats
  exact isAccepted_of_template (wellWired (hinner.valid hvalid)) htemplate

/-! ## A string that is read and then compared -/

/-- A brick that reads a string and puts one out. -/
def stringBrick (number : Nat) : Component :=
  let brick : Brick := ⟨.ofImage "alpine", [.port "in"], [⟨"out", .file "/tmp/out"⟩]⟩
  { ofImplementation (.repeating number) "brick" (.brick brick) with
    inputs := [⟨"in", .parameter⟩]
    outputs := [⟨"out", .parameter⟩] }

/-- One brick for positive numbers and one for all others. -/
def stringChoice : Component :=
  let conditional : Conditional :=
    ⟨⟨"yes", .inline (stringBrick 1)⟩, some ⟨"no", .inline (stringBrick 2)⟩,
      ⟨.data ⟨"in", .parameter⟩, .gt, .literal "0"⟩, [⟨"in", ⟨"yes", "in"⟩⟩],
      [⟨⟨"yes", "out"⟩, "out"⟩, ⟨⟨"no", "out"⟩, "out"⟩]⟩
  { ofImplementation (.repeating 3) "choice" (.conditional conditional) with
    inputs := [⟨"in", .parameter⟩]
    outputs := [⟨"out", .parameter⟩] }

/-- A brick and then the choice. -/
def stringGraph : Component :=
  let graph : Graph :=
    ⟨[⟨"read", .inline (stringBrick 1)⟩, ⟨"compare", .inline stringChoice⟩],
      [⟨⟨"read", "out"⟩, ⟨"compare", "in"⟩⟩], [⟨"in", ⟨"read", "in"⟩⟩],
      [⟨⟨"compare", "out"⟩, "out"⟩]⟩
  { ofImplementation (.repeating 4) "graph" (.graph graph) with
    inputs := [⟨"in", .parameter⟩]
    outputs := [⟨"out", .parameter⟩] }

/-- The graph is lowered, and all kinds of components in it are accepted. -/
theorem stringGraph_accepted :
    ∃ templates, stringGraph.templates .default .empty = .ok templates ∧ templates.length = 4 ∧
      stringGraph.IsAccepted ∧ stringChoice.IsAccepted ∧ (stringBrick 2).IsAccepted := by
  have hok : ∃ templates, stringGraph.templates .default .empty = .ok templates ∧
      templates.length = 4 := by
    rw [← exists_ok_iff]
    decide
  obtain ⟨templates, hok, hlength⟩ := hok
  obtain ⟨-, haccepted⟩ := accepted_of_templates hok
  have hchoice : stringGraph.HasChild stringChoice :=
    ⟨⟨"compare", .inline stringChoice⟩, .tail _ (.head _), rfl⟩
  have hbrick : stringChoice.HasChild (stringBrick 2) :=
    ⟨⟨"no", .inline (stringBrick 2)⟩, .tail _ (.head _), rfl⟩
  have hwithin := (Within.refl stringGraph).child hchoice
  exact ⟨templates, hok, hlength, haccepted _ (Within.refl _), haccepted _ hwithin,
    haccepted _ (hwithin.child hbrick)⟩

end Component

end Pipeline
