/-
Components and jobs read back from their documents.

Every type of the tree has one statement, that its values read back, and a record
has one line for each of its fields. Nodes, what they hold and what holds them
refer to one another, so for them the statement is made in two steps: a component
reads back wherever its nodes do, and by induction over the tree its nodes do. The
reader of nodes may descend as far as the document is deep, and the document of a
child is less deep than that of the node around it.

Instants of time are the exception among the leaves. Not every number of
nanoseconds has a text that denotes it, so trees are read back under the assumption
that theirs do (`Component.TimesReadBack`).
-/
import Pipeline.Job
import Pipeline.Proofs.Composite
import Pipeline.Proofs.Identifier
import Pipeline.Proofs.Records

set_option autoImplicit false

namespace Pipeline

open Json (IsField ReadsBack RecordReadsBack)

/-! ## Leaves -/

theorem ComponentId.readsBack (id : ComponentId) : ReadsBack ofJson? toJson id :=
  ReadsBack.text (ofText?_text id)

theorem Instant.readsBack {instant : Instant} (h : ofText? instant.text = some instant) :
    ReadsBack ofJson? toJson instant :=
  ReadsBack.text h

theorem PortType.readsBack (type : PortType) : ReadsBack ofJson? toJson type :=
  ReadsBack.name (ofName?_name type)

theorem Rendering.readsBack (rendering : Rendering) : ReadsBack ofJson? toJson rendering :=
  ReadsBack.name (ofName?_name rendering)

theorem Operator.readsBack (operator : Operator) : ReadsBack ofJson? toJson operator :=
  ReadsBack.name (ofSymbol?_symbol operator)

/-! ## Ports and connections -/

theorem Port.recordReadsBack (port : Port) :
    RecordReadsBack ["name", "type"] port.members ofJson? port := by
  have hname := (ReadsBack.string port.name).required "name"
  have htype := port.type.readsBack.required "type"
  refine ⟨.cons hname.isField (.cons htype.isField .nil), by decide, fun document hfields => ?_⟩
  simp [ofJson?, hfields, members, hname.reads, htype.reads]

theorem Port.readsBack (port : Port) : ReadsBack ofJson? toJson port :=
  port.recordReadsBack.readsBack rfl

theorem PortRef.readsBack (ref : PortRef) : ReadsBack ofJson? toJson ref := by
  have hnode := (ReadsBack.string ref.node).required "node"
  have hport := (ReadsBack.string ref.port).required "port"
  refine RecordReadsBack.readsBack ⟨.cons hnode.isField (.cons hport.isField .nil), by decide,
    fun document hfields => ?_⟩ rfl
  simp [ofJson?, hfields, hnode.reads, hport.reads]

theorem Edge.readsBack (edge : Edge) : ReadsBack ofJson? toJson edge := by
  have hsource := edge.source.readsBack.required "source"
  have htarget := edge.target.readsBack.required "target"
  refine RecordReadsBack.readsBack ⟨.cons hsource.isField (.cons htarget.isField .nil), by decide,
    fun document hfields => ?_⟩ rfl
  simp [ofJson?, hfields, hsource.reads, htarget.reads]

theorem InputMapping.readsBack (mapping : InputMapping) : ReadsBack ofJson? toJson mapping := by
  have hsource := (ReadsBack.string mapping.source).required "source"
  have htarget := mapping.target.readsBack.required "target"
  refine RecordReadsBack.readsBack ⟨.cons hsource.isField (.cons htarget.isField .nil), by decide,
    fun document hfields => ?_⟩ rfl
  simp [ofJson?, hfields, hsource.reads, htarget.reads]

theorem OutputMapping.readsBack (mapping : OutputMapping) : ReadsBack ofJson? toJson mapping := by
  have hsource := mapping.source.readsBack.required "source"
  have htarget := (ReadsBack.string mapping.target).required "target"
  refine RecordReadsBack.readsBack ⟨.cons hsource.isField (.cons htarget.isField .nil), by decide,
    fun document hfields => ?_⟩ rfl
  simp [ofJson?, hfields, hsource.reads, htarget.reads]

/-! ## Bricks -/

theorem ContainerSpec.readsBack (container : ContainerSpec) :
    ReadsBack ofJson? toJson container := by
  have himage := (ReadsBack.string container.image).required "image"
  have hcommand := ReadsBack.listUnlessEmpty container.command
    (fun text _ => .string text) "command"
  have hdir := ReadsBack.optional container.workingDir (fun text _ => .string text)
    "working_dir"
  have henv := ReadsBack.mapUnlessEmpty container.env (fun entry _ => .string entry.2)
    "env"
  refine RecordReadsBack.readsBack ⟨.cons himage.isField (.cons hcommand.isField
    (.cons hdir.isField (.cons henv.isField .nil))), by decide, fun document hfields => ?_⟩ rfl
  simp [ofJson?, hfields, himage.reads, hcommand.reads, hdir.reads, henv.reads]

theorem ArgumentSource.readsBack (source : ArgumentSource) : ReadsBack ofJson? toJson source := by
  cases source with
  | literal value =>
    have hvalue := (ReadsBack.string value).required "value"
    refine .of_variant (.cons hvalue.isField .nil) (by decide) rfl
      fun document rest htagged hfields => ?_
    simp [ofJson?, htagged, hfields, hvalue.reads]
  | port name rendering =>
    have hname := (ReadsBack.string name).required "name"
    have hkind := ReadsBack.optional rendering (fun kind _ => kind.readsBack) "kind"
    refine .of_variant (.cons hname.isField (.cons hkind.isField .nil)) (by decide) rfl
      fun document rest htagged hfields => ?_
    simp [ofJson?, htagged, hfields, hname.reads, hkind.reads]

theorem Argument.readsBack (argument : Argument) : ReadsBack ofJson? toJson argument := by
  have hsource := argument.source.readsBack.required "source"
  have hleading := ReadsBack.optional argument.leading (fun text _ => .string text)
    "prefix"
  have htrailing := ReadsBack.optional argument.trailing (fun text _ => .string text)
    "suffix"
  refine RecordReadsBack.readsBack ⟨.cons hsource.isField (.cons hleading.isField
    (.cons htrailing.isField .nil)), by decide, fun document hfields => ?_⟩ rfl
  simp [ofJson?, hfields, hsource.reads, hleading.reads, htrailing.reads]

theorem ResultSource.readsBack (source : ResultSource) : ReadsBack ofJson? toJson source := by
  cases source with
  | file path =>
    have hpath := (ReadsBack.string path).required "path"
    refine .of_variant (.cons hpath.isField .nil) (by decide) rfl
      fun document rest htagged hfields => ?_
    simp [ofJson?, htagged, hfields, hpath.reads]
  | volume input =>
    have hname := (ReadsBack.string input).required "name"
    refine .of_variant (.cons hname.isField .nil) (by decide) rfl
      fun document rest htagged hfields => ?_
    simp [ofJson?, htagged, hfields, hname.reads]

theorem BrickResult.readsBack (result : BrickResult) : ReadsBack ofJson? toJson result := by
  have hport := (ReadsBack.string result.port).required "port"
  have hsource := result.source.readsBack.required "source"
  refine RecordReadsBack.readsBack ⟨.cons hport.isField (.cons hsource.isField .nil), by decide,
    fun document hfields => ?_⟩ rfl
  simp [ofJson?, hfields, hport.reads, hsource.reads]

theorem Brick.recordReadsBack (brick : Brick) :
    RecordReadsBack ["container", "args", "results"] brick.members ofJson? brick := by
  have hcontainer := brick.container.readsBack.required "container"
  have hargs := (ReadsBack.list brick.args fun argument _ =>
    argument.readsBack).defaulted "args" []
  have hresults := (ReadsBack.list brick.results fun result _ =>
    result.readsBack).defaulted "results" []
  refine ⟨.cons hcontainer.isField (.cons hargs.isField (.cons hresults.isField .nil)), by decide,
    fun document hfields => ?_⟩
  simp [ofJson?, hfields, members, hcontainer.reads, hargs.reads, hresults.reads]

/-! ## Conditions -/

theorem Operand.readsBack (operand : Operand) : ReadsBack ofJson? toJson operand := by
  cases operand with
  | literal value =>
    have hvalue := (ReadsBack.string value).required "value"
    refine .of_variant (.cons hvalue.isField .nil) (by decide) rfl
      fun document rest htagged hfields => ?_
    simp [ofJson?, htagged, hfields, hvalue.reads]
  | data port =>
    have hport := port.recordReadsBack
    refine .of_variant hport.areFields (by decide) rfl fun document rest htagged hfields => ?_
    simp [ofJson?, htagged, hport.reads rest hfields]

theorem Condition.readsBack (condition : Condition) : ReadsBack ofJson? toJson condition := by
  have hleft := condition.left.readsBack.required "left"
  have hoperator := condition.operator.readsBack.required "operator"
  have hright := condition.right.readsBack.required "right"
  refine RecordReadsBack.readsBack ⟨.cons hleft.isField (.cons hoperator.isField
    (.cons hright.isField .nil)), by decide, fun document hfields => ?_⟩ rfl
  simp [ofJson?, hfields, hleft.reads, hoperator.reads, hright.reads]

/-! ## What holds nodes -/

theorem Node.listToJson_eq_map (nodes : List Node) :
    Node.listToJson nodes = nodes.map Node.toJson := by
  induction nodes with
  | nil => rfl
  | cons node nodes ih => rw [Node.listToJson, ih, List.map_cons]

theorem Node.optionToField_eq (node : Option Node) :
    Node.optionToField node = Json.field? "node_false" Node.toJson node := by
  cases node <;> rfl

theorem InputMapping.fieldReadsBack (mappings : List InputMapping) :
    Json.FieldReadsBack "input_mappings"
      (Json.field "input_mappings" (.array (mappings.map toJson)))
      (Json.defaulted (Json.list? ofJson?) []) mappings :=
  (ReadsBack.list mappings fun mapping _ => mapping.readsBack).defaulted "input_mappings" []

theorem OutputMapping.fieldReadsBack (mappings : List OutputMapping) :
    Json.FieldReadsBack "output_mappings"
      (Json.field "output_mappings" (.array (mappings.map toJson)))
      (Json.defaulted (Json.list? ofJson?) []) mappings :=
  (ReadsBack.list mappings fun mapping _ => mapping.readsBack).defaulted "output_mappings" []

section Holders

variable {node? : Json → Option Node}

theorem Graph.recordReadsBack (graph : Graph)
    (hnodes : ∀ node ∈ graph.nodes, ReadsBack node? Node.toJson node) :
    RecordReadsBack ["nodes", "edges", "input_mappings", "output_mappings"] graph.members
      (Document.graph? node?) graph := by
  obtain ⟨nodes, edges, inputMappings, outputMappings⟩ := graph
  have hnodes := (ReadsBack.list nodes hnodes).defaulted "nodes" []
  have hedges := (ReadsBack.list edges fun edge _ =>
    edge.readsBack).defaulted "edges" []
  have hinputs := InputMapping.fieldReadsBack inputMappings
  have houtputs := OutputMapping.fieldReadsBack outputMappings
  rw [members, Node.listToJson_eq_map]
  refine ⟨.cons hnodes.isField (.cons hedges.isField (.cons hinputs.isField
    (.cons houtputs.isField .nil))), by decide, fun document hfields => ?_⟩
  simp [Document.graph?, hfields, hnodes.reads, hedges.reads, hinputs.reads, houtputs.reads]

theorem MapBlock.recordReadsBack (map : MapBlock)
    (hnode : ReadsBack node? Node.toJson map.node) :
    RecordReadsBack ["node", "input_mappings", "output_mappings"] map.members
      (Document.map? node?) map := by
  obtain ⟨node, inputMappings, outputMappings⟩ := map
  have hnode := hnode.required "node"
  have hinputs := InputMapping.fieldReadsBack inputMappings
  have houtputs := OutputMapping.fieldReadsBack outputMappings
  refine ⟨.cons hnode.isField (.cons hinputs.isField (.cons houtputs.isField .nil)), by decide,
    fun document hfields => ?_⟩
  simp [Document.map?, hfields, members, hnode.reads, hinputs.reads, houtputs.reads]

theorem Conditional.recordReadsBack (conditional : Conditional)
    (hnodes : ∀ node ∈ conditional.branches, ReadsBack node? Node.toJson node) :
    RecordReadsBack ["node_true", "node_false", "expression", "input_mappings", "output_mappings"]
      conditional.members (Document.conditional? node?) conditional := by
  obtain ⟨nodeTrue, nodeFalse, condition, inputMappings, outputMappings⟩ := conditional
  have htrue := (hnodes nodeTrue List.mem_cons_self).required "node_true"
  have hfalse := ReadsBack.optional nodeFalse (fun node hnode =>
    hnodes node (List.mem_cons_of_mem _ (Option.mem_toList.2 hnode))) "node_false"
  have hcondition := condition.readsBack.required "expression"
  have hinputs := InputMapping.fieldReadsBack inputMappings
  have houtputs := OutputMapping.fieldReadsBack outputMappings
  rw [members, Node.optionToField_eq]
  refine ⟨.cons htrue.isField (.cons hfalse.isField (.cons hcondition.isField
    (.cons hinputs.isField (.cons houtputs.isField .nil)))), by decide,
    fun document hfields => ?_⟩
  simp [Document.conditional?, hfields, htrue.reads, hfalse.reads, hcondition.reads, hinputs.reads,
    houtputs.reads]

theorem Implementation.readsBack_of_nodes {implementation : Implementation}
    (hnodes : ∀ node ∈ implementation.children, ReadsBack node? Node.toJson node) :
    ReadsBack (Document.implementation? node?) toJson implementation := by
  cases implementation with
  | brick block =>
    have hblock := block.recordReadsBack
    refine .of_variant hblock.areFields (by decide) rfl fun document rest htagged hfields => ?_
    simp [Document.implementation?, htagged, hblock.reads rest hfields]
  | graph block =>
    have hblock := block.recordReadsBack hnodes
    refine .of_variant hblock.areFields (by decide) rfl fun document rest htagged hfields => ?_
    simp [Document.implementation?, htagged, hblock.reads rest hfields]
  | map block =>
    have hblock := block.recordReadsBack (hnodes _ (List.mem_singleton_self _))
    refine .of_variant hblock.areFields (by decide) rfl fun document rest htagged hfields => ?_
    simp [Document.implementation?, htagged, hblock.reads rest hfields]
  | conditional block =>
    have hblock := block.recordReadsBack hnodes
    refine .of_variant hblock.areFields (by decide) rfl fun document rest htagged hfields => ?_
    simp [Document.implementation?, htagged, hblock.reads rest hfields]
  | any => exact ⟨rfl, by simp [toJson, Json.record], rfl⟩

theorem Component.recordReadsBack {component : Component}
    (htime : ∀ instant ∈ component.timestamp, Instant.ofText? instant.text = some instant)
    (hnodes : ∀ node ∈ component.children, ReadsBack node? Node.toJson node) :
    RecordReadsBack
      ["id", "name", "description", "modifier", "timestamp", "version", "inputs", "outputs",
        "implementation"]
      component.members (Document.component? node?) component := by
  obtain ⟨id, name, description, modifier, timestamp, version, inputs, outputs, implementation⟩ :=
    component
  have hid := id.readsBack.required "id"
  have hname := (ReadsBack.string name).required "name"
  have hdescription := ReadsBack.optional description (fun text _ => .string text)
    "description"
  have hmodifier := ReadsBack.optional modifier (fun text _ => .string text) "modifier"
  have htimestamp := ReadsBack.optional timestamp (fun instant hinstant =>
    Instant.readsBack (htime instant hinstant)) "timestamp"
  have hversion := ReadsBack.optional version (fun number _ => .uint64 number) "version"
  have hinputs := (ReadsBack.list inputs fun port _ =>
    port.readsBack).defaulted "inputs" []
  have houtputs := (ReadsBack.list outputs fun port _ =>
    port.readsBack).defaulted "outputs" []
  have himplementation := (Implementation.readsBack_of_nodes hnodes).required "implementation"
  refine ⟨.cons hid.isField (.cons hname.isField (.cons hdescription.isField
    (.cons hmodifier.isField (.cons htimestamp.isField (.cons hversion.isField
    (.cons hinputs.isField (.cons houtputs.isField (.cons himplementation.isField .nil)))))))),
    by decide, fun document hfields => ?_⟩
  simp [Document.component?, hfields, members, hid.reads, hname.reads, hdescription.reads,
    hmodifier.reads, htimestamp.reads, hversion.reads, hinputs.reads, houtputs.reads,
    himplementation.reads]

theorem NodeRef.readsBack_of_nodes {ref : NodeRef}
    (hcomponent : ∀ component, ref.component? = some component →
      (∀ instant ∈ component.timestamp, Instant.ofText? instant.text = some instant) ∧
        ∀ node ∈ component.children, ReadsBack node? Node.toJson node) :
    ReadsBack (Document.nodeRef? node?) toJson ref := by
  cases ref with
  | inline component =>
    obtain ⟨htime, hnodes⟩ := hcomponent component rfl
    have hrecord := Component.recordReadsBack htime hnodes
    refine .of_variant hrecord.areFields (by decide) rfl fun document rest htagged hfields => ?_
    simp [Document.nodeRef?, htagged, hrecord.reads rest hfields]
  | latest id =>
    have hid := id.readsBack.required "id"
    refine .of_variant (.cons hid.isField .nil) (by decide) rfl
      fun document rest htagged hfields => ?_
    simp [Document.nodeRef?, htagged, hfields, hid.reads]
  | pinned id version =>
    have hid := id.readsBack.required "id"
    have hversion := (ReadsBack.uint64 version).required "version"
    refine .of_variant (.cons hid.isField (.cons hversion.isField .nil)) (by decide) rfl
      fun document rest htagged hfields => ?_
    simp [Document.nodeRef?, htagged, hfields, hid.reads, hversion.reads]

end Holders

/-! ## How deep nodes lie -/

theorem Node.depth_target (node : Node) : node.target.toJson.depth < node.toJson.depth := by
  obtain ⟨id, target⟩ := node
  rw [toJson]
  exact Json.depth_lt_record (.tail _ (.head _))

theorem NodeRef.depth_component {ref : NodeRef} {component : Component}
    (h : ref.component? = some component) : component.toJson.depth = ref.toJson.depth := by
  cases ref with
  | inline child =>
    obtain rfl := Option.some.inj h
    exact (Json.depth_variant "type" "component").symm
  | latest _ | pinned _ _ => cases h

theorem Graph.depth_node {graph : Graph} {node : Node} (h : node ∈ graph.nodes) :
    node.toJson.depth < graph.toJson.depth := by
  obtain ⟨nodes, edges, inputMappings, outputMappings⟩ := graph
  have hmember : node.toJson ∈ Node.listToJson nodes := by
    rw [Node.listToJson_eq_map]
    exact List.mem_map_of_mem h
  rw [toJson, members]
  exact Nat.lt_trans (Json.depth_lt_array hmember) (Json.depth_lt_record (.head _))

theorem MapBlock.depth_node (map : MapBlock) : map.node.toJson.depth < map.toJson.depth := by
  obtain ⟨node, inputMappings, outputMappings⟩ := map
  rw [toJson, members]
  exact Json.depth_lt_record (.head _)

theorem Conditional.depth_node {conditional : Conditional} {node : Node}
    (h : node ∈ conditional.branches) : node.toJson.depth < conditional.toJson.depth := by
  obtain ⟨nodeTrue, nodeFalse, condition, inputMappings, outputMappings⟩ := conditional
  rw [toJson, members]
  rcases List.mem_cons.1 h with rfl | h
  · exact Json.depth_lt_record (.head _)
  · obtain rfl := Option.mem_toList.1 h
    exact Json.depth_lt_record (.tail _ (.head _))

theorem Implementation.depth_node {implementation : Implementation} {node : Node}
    (h : node ∈ implementation.children) : node.toJson.depth < implementation.toJson.depth := by
  cases implementation with
  | brick _ | any => cases h
  | graph block =>
    rw [toJson, Json.depth_variant]
    exact Graph.depth_node h
  | map block =>
    obtain rfl := List.mem_singleton.1 h
    rw [toJson, Json.depth_variant]
    exact block.depth_node
  | conditional block =>
    rw [toJson, Json.depth_variant]
    exact Conditional.depth_node h

theorem Component.depth_node {component : Component} {node : Node}
    (h : node ∈ component.children) : node.toJson.depth < component.toJson.depth := by
  obtain ⟨id, name, description, modifier, timestamp, version, inputs, outputs, implementation⟩ :=
    component
  have hmember : some ("implementation", implementation.toJson) ∈
      members ⟨id, name, description, modifier, timestamp, version, inputs, outputs,
        implementation⟩ := by
    simp [members, Json.field]
  exact Nat.lt_trans (Implementation.depth_node h) (Json.depth_lt_record hmember)

/-! ## Trees -/

/-- The instants that stand in the tree have texts that denote them. -/
def Component.TimesReadBack (component : Component) : Prop :=
  ∀ inner, component.Within inner →
    ∀ instant ∈ inner.timestamp, Instant.ofText? instant.text = some instant

/-- The instants below the reference have texts that denote them. -/
def NodeRef.TimesReadBack (ref : NodeRef) : Prop :=
  ∀ component, ref.component? = some component → component.TimesReadBack

/-- The instants below the implementation have texts that denote them. -/
def Implementation.TimesReadBack (implementation : Implementation) : Prop :=
  ∀ node ∈ implementation.children, node.target.TimesReadBack

theorem Component.TimesReadBack.implementation {component : Component}
    (h : component.TimesReadBack) : component.implementation.TimesReadBack :=
  fun node hnode _ hchild inner hinner => h inner (hinner.below ⟨node, hnode, hchild⟩)

/-- A node reads back when the nodes of the component at it do. -/
theorem Node.readsBack_of_nodes {node : Node} {fuel : Nat} (hfuel : node.toJson.depth ≤ fuel)
    (hcomponent : ∀ component, node.component? = some component →
      (∀ instant ∈ component.timestamp, Instant.ofText? instant.text = some instant) ∧
        ∀ fuel, component.toJson.depth ≤ fuel → ∀ inner ∈ component.children,
          ReadsBack (Document.node? fuel) Node.toJson inner) :
    ReadsBack (Document.node? fuel) Node.toJson node := by
  have hdepth := node.depth_target
  cases fuel with
  | zero => omega
  | succ fuel =>
    have htarget : ReadsBack (Document.nodeRef? (Document.node? fuel)) NodeRef.toJson
        node.target := by
      refine NodeRef.readsBack_of_nodes fun component hinline => ?_
      obtain ⟨htime, hnodes⟩ := hcomponent component hinline
      refine ⟨htime, hnodes fuel ?_⟩
      have hsame := NodeRef.depth_component hinline
      omega
    obtain ⟨id, target⟩ := node
    have hid := (ReadsBack.string id).required "id"
    have htarget := htarget.required "node"
    refine RecordReadsBack.readsBack ⟨.cons hid.isField (.cons htarget.isField .nil), by decide,
      fun document hfields => ?_⟩ rfl
    simp [Document.node?, hfields, hid.reads, htarget.reads]

/-- The nodes of a component are read to whatever depth the document of the component has. -/
theorem Component.nodes_readBack {component : Component} (h : component.TimesReadBack) (fuel : Nat)
    (hfuel : component.toJson.depth ≤ fuel) :
    ∀ node ∈ component.children, ReadsBack (Document.node? fuel) Node.toJson node := by
  induction component using Component.induction generalizing fuel with
  | step component ih =>
    intro node hnode
    have hdepth := Component.depth_node hnode
    refine Node.readsBack_of_nodes (by omega) fun child hinline => ?_
    have hchild : component.HasChild child := ⟨node, hnode, hinline⟩
    have htimes : child.TimesReadBack := h.implementation node hnode child hinline
    exact ⟨htimes child (.refl child), ih child hchild htimes⟩

theorem Node.readsBack {node : Node} (h : node.target.TimesReadBack) {fuel : Nat}
    (hfuel : node.toJson.depth ≤ fuel) : ReadsBack (Document.node? fuel) toJson node := by
  refine readsBack_of_nodes hfuel fun component hinline => ?_
  have htimes := h component hinline
  exact ⟨htimes component (.refl component), Component.nodes_readBack htimes⟩

theorem Component.readsBack {component : Component} (h : component.TimesReadBack) :
    ReadsBack ofJson? toJson component := by
  have hrecord := Component.recordReadsBack (h component (.refl component))
    (Component.nodes_readBack h component.toJson.depth (Nat.le_refl _))
  exact ReadsBack.congr (hrecord.readsBack rfl) rfl

theorem Implementation.readsBack {implementation : Implementation}
    (h : implementation.TimesReadBack) : ReadsBack ofJson? toJson implementation := by
  refine ReadsBack.congr (readsBack_of_nodes fun node hnode => ?_) rfl
  exact node.readsBack (h node hnode) (Nat.le_of_lt (depth_node hnode))

theorem NodeRef.readsBack {ref : NodeRef} (h : ref.TimesReadBack) :
    ReadsBack ofJson? toJson ref := by
  refine ReadsBack.congr (readsBack_of_nodes fun component hinline => ?_) rfl
  have htimes := h component hinline
  refine ⟨htimes component (.refl component), Component.nodes_readBack htimes _ ?_⟩
  exact Nat.le_of_eq (depth_component hinline)

/-! ## Jobs -/

theorem Payload.readsBack (payload : Payload) : ReadsBack ofJson? toJson payload := by
  cases payload with
  | text value => exact ⟨rfl, by simp [toJson], rfl⟩
  | list values =>
    have hvalues := ReadsBack.list values fun value _ => .string value
    have hreads : (values.map Json.string).mapM Json.string? = some values := hvalues.reads
    refine ⟨hvalues.readable, hvalues.notNull, ?_⟩
    rw [toJson, Json.ofStrings, ofJson?, hreads, Option.map_some]

theorem InputValue.readsBack (value : InputValue) : ReadsBack ofJson? toJson value := by
  have htarget := (ReadsBack.string value.target).required "target"
  have hpayload := value.payload.readsBack.required "value"
  refine RecordReadsBack.readsBack ⟨.cons htarget.isField (.cons hpayload.isField .nil),
    by decide, fun document hfields => ?_⟩ rfl
  simp [ofJson?, hfields, htarget.reads, hpayload.reads]

theorem Submission.readsBack {submission : Submission}
    (h : submission.component.TimesReadBack) : ReadsBack ofJson? toJson submission := by
  have hid := submission.id.readsBack.required "id"
  have hname := (ReadsBack.string submission.name).required "name"
  have hworkspace := (ReadsBack.string submission.workspace).required "workspace"
  have hcomponent := (NodeRef.readsBack h).required "component"
  refine RecordReadsBack.readsBack ⟨.cons hid.isField (.cons hname.isField
    (.cons hworkspace.isField (.cons hcomponent.isField .nil))), by decide,
    fun document hfields => ?_⟩ rfl
  simp [ofJson?, hfields, hid.reads, hname.reads, hworkspace.reads, hcomponent.reads]

theorem Job.readsBack {job : Job} (h : job.workflow.component.TimesReadBack) :
    ReadsBack ofJson? toJson job := by
  have hworkflow := (Submission.readsBack h).required "workflow"
  have hinputs := (ReadsBack.list job.inputs fun value _ =>
    value.readsBack).defaulted "inputs" []
  refine RecordReadsBack.readsBack ⟨.cons hworkflow.isField (.cons hinputs.isField .nil),
    by decide, fun document hfields => ?_⟩ rfl
  simp [ofJson?, hfields, hworkflow.reads, hinputs.reads]

/-! ## Tags -/

/-! A tag is looked for among the fields of the variant that it is written with. None of them has
its name, whatever the variant holds. -/

section Tags

open Json (IsNamed TaggedOnce areNamed_of_areFields isNamed_field isNamed_field? taggedOnce_record)

theorem ArgumentSource.taggedOnce (source : ArgumentSource) :
    ∃ name, TaggedOnce "type" name source.toJson := by
  cases source with
  | literal value =>
    exact ⟨"literal", taggedOnce_record (.cons (isNamed_field "value" _) .nil) (by decide)⟩
  | port name rendering =>
    exact ⟨"port", taggedOnce_record
      (.cons (isNamed_field "name" _) (.cons (isNamed_field? "kind" _ _) .nil)) (by decide)⟩

theorem ResultSource.taggedOnce (source : ResultSource) :
    ∃ name, TaggedOnce "type" name source.toJson := by
  cases source with
  | file path =>
    exact ⟨"file", taggedOnce_record (.cons (isNamed_field "path" _) .nil) (by decide)⟩
  | volume input =>
    exact ⟨"volume", taggedOnce_record (.cons (isNamed_field "name" _) .nil) (by decide)⟩

theorem Operand.taggedOnce (operand : Operand) :
    ∃ name, TaggedOnce "kind" name operand.toJson := by
  cases operand with
  | literal value =>
    exact ⟨"literal", taggedOnce_record (.cons (isNamed_field "value" _) .nil) (by decide)⟩
  | data port =>
    have hnamed := areNamed_of_areFields port.recordReadsBack.areFields
    exact ⟨"data", taggedOnce_record hnamed (by decide)⟩

theorem Graph.areNamed (graph : Graph) : List.Forall₂ IsNamed
    ["nodes", "edges", "input_mappings", "output_mappings"] graph.members := by
  obtain ⟨nodes, edges, inputMappings, outputMappings⟩ := graph
  exact .cons (isNamed_field "nodes" _) (.cons (isNamed_field "edges" _)
    (.cons (isNamed_field "input_mappings" _) (.cons (isNamed_field "output_mappings" _) .nil)))

theorem MapBlock.areNamed (map : MapBlock) : List.Forall₂ IsNamed
    ["node", "input_mappings", "output_mappings"] map.members := by
  obtain ⟨node, inputMappings, outputMappings⟩ := map
  exact .cons (isNamed_field "node" _) (.cons (isNamed_field "input_mappings" _)
    (.cons (isNamed_field "output_mappings" _) .nil))

theorem Conditional.areNamed (conditional : Conditional) : List.Forall₂ IsNamed
    ["node_true", "node_false", "expression", "input_mappings", "output_mappings"]
    conditional.members := by
  obtain ⟨nodeTrue, nodeFalse, condition, inputMappings, outputMappings⟩ := conditional
  rw [members, Node.optionToField_eq]
  exact .cons (isNamed_field "node_true" _) (.cons (isNamed_field? "node_false" _ _)
    (.cons (isNamed_field "expression" _) (.cons (isNamed_field "input_mappings" _)
    (.cons (isNamed_field "output_mappings" _) .nil))))

theorem Component.areNamed (component : Component) : List.Forall₂ IsNamed
    ["id", "name", "description", "modifier", "timestamp", "version", "inputs", "outputs",
      "implementation"] component.members := by
  obtain ⟨id, name, description, modifier, timestamp, version, inputs, outputs, implementation⟩ :=
    component
  exact .cons (isNamed_field "id" _) (.cons (isNamed_field "name" _)
    (.cons (isNamed_field? "description" _ _) (.cons (isNamed_field? "modifier" _ _)
    (.cons (isNamed_field? "timestamp" _ _) (.cons (isNamed_field? "version" _ _)
    (.cons (isNamed_field "inputs" _) (.cons (isNamed_field "outputs" _)
    (.cons (isNamed_field "implementation" _) .nil))))))))

theorem Implementation.taggedOnce (implementation : Implementation) :
    TaggedOnce "type" implementation.kind implementation.toJson := by
  cases implementation with
  | brick block =>
    exact taggedOnce_record (areNamed_of_areFields block.recordReadsBack.areFields) (by decide)
  | graph block => exact taggedOnce_record block.areNamed (by decide)
  | map block => exact taggedOnce_record block.areNamed (by decide)
  | conditional block => exact taggedOnce_record block.areNamed (by decide)
  | any => exact taggedOnce_record .nil List.not_mem_nil

theorem NodeRef.taggedOnce (ref : NodeRef) : TaggedOnce "type" ref.variant ref.toJson := by
  cases ref with
  | inline component => exact taggedOnce_record component.areNamed (by decide)
  | latest id => exact taggedOnce_record (.cons (isNamed_field "id" _) .nil) (by decide)
  | pinned id version =>
    exact taggedOnce_record (.cons (isNamed_field "id" _) (.cons (isNamed_field "version" _) .nil))
      (by decide)

end Tags

/-! ## The round trip -/

/-- **Documents of components and jobs read back.** What is read from the document of a component,
of an implementation, of what a node holds or of a job is what the document was written for,
provided that its instants of time have texts that denote them. In particular what was left out of
the document, being absent or empty, is absent or empty again. In each variant exactly one field has
the name of the tag, and it holds the name of the variant. -/
theorem Job.documents_read_back :
    (∀ component : Component, component.TimesReadBack →
        Component.ofJson? component.toJson = some component) ∧
      (∀ implementation : Implementation, implementation.TimesReadBack →
        Implementation.ofJson? implementation.toJson = some implementation) ∧
      (∀ ref : NodeRef, ref.TimesReadBack → NodeRef.ofJson? ref.toJson = some ref) ∧
      (∀ job : Job, job.workflow.component.TimesReadBack → Job.ofJson? job.toJson = some job) ∧
      (∀ implementation : Implementation,
        Json.TaggedOnce "type" implementation.kind implementation.toJson) ∧
      (∀ ref : NodeRef, Json.TaggedOnce "type" ref.variant ref.toJson) ∧
      (∀ source : ArgumentSource, ∃ name, Json.TaggedOnce "type" name source.toJson) ∧
      (∀ source : ResultSource, ∃ name, Json.TaggedOnce "type" name source.toJson) ∧
      ∀ operand : Operand, ∃ name, Json.TaggedOnce "kind" name operand.toJson := by
  refine ⟨?_, ?_, ?_, ?_, Implementation.taggedOnce, NodeRef.taggedOnce,
    ArgumentSource.taggedOnce, ResultSource.taggedOnce, Operand.taggedOnce⟩
  · intro component h
    exact (Component.readsBack h).reads
  · intro implementation h
    exact (Implementation.readsBack h).reads
  · intro ref h
    exact (NodeRef.readsBack h).reads
  · intro job h
    exact (Job.readsBack h).reads

/-- A brick of known date inside a graph, beside a stored component in one of its versions. -/
def Job.datedJob : Job where
  workflow :=
    ⟨.repeating 9, "job", "space", .inline (.volumeGraph 3 ["disk"] []
      ⟨[⟨"dated", .inline { Component.volumeBrick 1 with
            timestamp := some ⟨1700000000123000000⟩ }⟩,
          ⟨"stored", .pinned (.repeating 2) 7⟩],
        [⟨⟨"dated", "out"⟩, ⟨"stored", "in"⟩⟩], [⟨"disk", ⟨"dated", "in"⟩⟩], []⟩)⟩
  inputs := [⟨"disk", .text "\x7b\"name\":\"disk\"\x7d"⟩]

/-- The date has a text, and the job reads back. -/
theorem Job.datedJob_reads_back :
    datedJob.workflow.component.TimesReadBack ∧
      Job.ofJson? datedJob.toJson = some datedJob := by
  have htimes : datedJob.workflow.component.TimesReadBack := by
    intro component hcomponent inner hinner instant hinstant
    obtain rfl := Option.some.inj hcomponent
    rcases Component.within_volumeGraph.1 hinner with rfl | ⟨node, hnode, child, hchild, hinner⟩
    · cases hinstant
    · rcases List.mem_pair.1 hnode with rfl | rfl
      · obtain rfl := Option.some.inj hchild
        rcases Component.within_iff.1 hinner with rfl | ⟨below, hbelow, -⟩
        · obtain rfl := Option.some.inj hinstant
          decide
        · obtain ⟨node, hnode, -⟩ := hbelow
          cases hnode
      · cases hchild
  exact ⟨htimes, documents_read_back.2.2.2.1 datedJob htimes⟩

end Pipeline
