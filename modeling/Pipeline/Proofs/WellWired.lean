/-
What a valid tree promises about its connections.

Validation checks every component by itself, so a valid tree consists of valid
components (`Component.validate_eq_ok`), and every composite in it is *well wired*:
its connections end at its own nodes, and its edges do not lead in a circle.

That edges do not lead in a circle is found by taking nodes away in rounds. What
the walks along edges need of it is the order in which nodes go: the node at the
beginning of an edge goes in an earlier round than the node at its end
(`Graph.source_notMem_peel`). A walk against the edges therefore has at most as
many steps as there are rounds.
-/
import Pipeline.Proofs.Composite

set_option autoImplicit false

namespace Pipeline

/-! ## Names that stand once -/

theorem firstRepeated?_eq_none {seen names : List String} :
    firstRepeated? seen names = none ↔ names.Nodup ∧ ∀ name ∈ names, name ∉ seen := by
  induction names generalizing seen with
  | nil => simp [firstRepeated?]
  | cons name names ih =>
    rw [firstRepeated?]
    by_cases hseen : name ∈ seen
    · rw [if_pos hseen]
      simp [hseen]
    · rw [if_neg hseen, ih, List.nodup_cons, List.forall_mem_cons]
      simp only [List.mem_cons, not_or]
      constructor
      · rintro ⟨hnodup, hrest⟩
        have hname : name ∉ names := fun hmem => (hrest name hmem).1 rfl
        exact ⟨⟨hname, hnodup⟩, hseen, fun other hother => (hrest other hother).2⟩
      · rintro ⟨⟨hname, hnodup⟩, -, hrest⟩
        refine ⟨hnodup, fun other hother => ⟨?_, hrest other hother⟩⟩
        rintro rfl
        exact hname hother

/-- No name is found repeated exactly when none is. -/
theorem firstRepeated?_nil_eq_none {names : List String} :
    firstRepeated? [] names = none ↔ names.Nodup := by
  rw [firstRepeated?_eq_none]
  simp

/-! ## Rounds -/

namespace Graph

/-- The last round, taken by itself: what stays has an edge from something that has stayed so
far. -/
theorem mem_peel_succ {edges : List Edge} {rounds : Nat} {rest : List String} {id : String} :
    id ∈ peel edges (rounds + 1) rest ↔
      id ∈ peel edges rounds rest ∧
        ∃ edge ∈ edges, edge.target.node = id ∧ edge.source.node ∈ peel edges rounds rest := by
  induction rounds generalizing rest with
  | zero => simp [peel, List.mem_filter]
  | succ rounds ih =>
    rw [peel, ih]
    simp only [peel]

/-- The node at the beginning of an edge goes in an earlier round than the node at its end. -/
theorem source_notMem_peel {edges : List Edge} {rounds : Nat} {rest : List String} {edge : Edge}
    (hedge : edge ∈ edges) (htarget : edge.target.node ∈ rest)
    (hgone : edge.target.node ∉ peel edges (rounds + 1) rest) :
    edge.source.node ∉ peel edges rounds rest := by
  -- Going through the rounds to the one in which the end of the edge goes: a beginning that is still
  -- there would keep it.
  induction rounds with
  | zero =>
    intro hsource
    exact hgone (mem_peel_succ.2 ⟨htarget, edge, hedge, rfl, hsource⟩)
  | succ rounds ih =>
    intro hsource
    by_cases hstays : edge.target.node ∈ peel edges (rounds + 1) rest
    · exact hgone (mem_peel_succ.2 ⟨hstays, edge, hedge, rfl, hsource⟩)
    · exact ih hstays (mem_peel_succ.1 hsource).1

/-! ## Well wired scopes -/

/-- Connections name the nodes at their ends that lie inside. -/
theorem mem_endpoints {graph : Graph} {id : String} :
    id ∈ graph.endpoints ↔
      (∃ edge ∈ graph.edges, id = edge.source.node ∨ id = edge.target.node) ∨
        (∃ mapping ∈ graph.inputMappings, mapping.target.node = id) ∨
        ∃ mapping ∈ graph.outputMappings, mapping.source.node = id := by
  simp only [endpoints, List.mem_append, List.mem_flatMap, List.mem_map, List.mem_pair, or_assoc]

/-- The connections of a scope end at its own nodes, and its edges do not lead in a circle. -/
structure WellWired (graph : Graph) : Prop where
  known : ∀ id ∈ graph.endpoints, ∃ node ∈ graph.nodes, node.id = id
  acyclic : graph.isAcyclic = true

namespace WellWired

variable {graph : Graph}

theorem known_source (h : graph.WellWired) {edge : Edge} (hedge : edge ∈ graph.edges) :
    ∃ node ∈ graph.nodes, node.id = edge.source.node :=
  h.known _ (mem_endpoints.2 (.inl ⟨edge, hedge, .inl rfl⟩))

theorem known_target (h : graph.WellWired) {edge : Edge} (hedge : edge ∈ graph.edges) :
    ∃ node ∈ graph.nodes, node.id = edge.target.node :=
  h.known _ (mem_endpoints.2 (.inl ⟨edge, hedge, .inr rfl⟩))

theorem known_input (h : graph.WellWired) {mapping : InputMapping}
    (hmapping : mapping ∈ graph.inputMappings) :
    ∃ node ∈ graph.nodes, node.id = mapping.target.node :=
  h.known _ (mem_endpoints.2 (.inr (.inl ⟨mapping, hmapping, rfl⟩)))

theorem known_output (h : graph.WellWired) {mapping : OutputMapping}
    (hmapping : mapping ∈ graph.outputMappings) :
    ∃ node ∈ graph.nodes, node.id = mapping.source.node :=
  h.known _ (mem_endpoints.2 (.inr (.inr ⟨mapping, hmapping, rfl⟩)))

/-- After as many rounds as there are nodes, every node is gone. -/
theorem notMem_peel (h : graph.WellWired) (id : String) :
    id ∉ peel graph.edges graph.nodes.length (graph.nodes.map (·.id)) := by
  have hempty := h.acyclic
  rw [isAcyclic, List.isEmpty_iff] at hempty
  rw [hempty]
  exact List.not_mem_nil

end WellWired

/-! ## Validation, in these terms -/

/-- Nodes have distinct identifiers, and every connection names nodes that are there. -/
structure Closed (graph : Graph) : Prop where
  distinct : (graph.nodes.map (·.id)).Nodup
  sources : ∀ edge ∈ graph.edges, edge.source.node ∈ graph.nodes.map (·.id)
  targets : ∀ edge ∈ graph.edges, edge.target.node ∈ graph.nodes.map (·.id)
  inputs : ∀ mapping ∈ graph.inputMappings, mapping.target.node ∈ graph.nodes.map (·.id)
  outputs : ∀ mapping ∈ graph.outputMappings, mapping.source.node ∈ graph.nodes.map (·.id)

theorem closed_iff {graph : Graph} :
    graph.Closed ↔
      firstRepeated? [] (graph.nodes.map (·.id)) = none ∧
        ∀ id ∈ graph.endpoints, id ∈ graph.nodes.map (·.id) := by
  rw [firstRepeated?_nil_eq_none]
  constructor
  · intro h
    refine ⟨h.distinct, fun id hid => ?_⟩
    rcases mem_endpoints.1 hid with ⟨edge, hedge, rfl | rfl⟩ | ⟨mapping, hmapping, rfl⟩ |
      ⟨mapping, hmapping, rfl⟩
    · exact h.sources edge hedge
    · exact h.targets edge hedge
    · exact h.inputs mapping hmapping
    · exact h.outputs mapping hmapping
  · rintro ⟨hdistinct, hknown⟩
    refine ⟨hdistinct, ?_, ?_, ?_, ?_⟩
    · exact fun edge hedge => hknown _ (mem_endpoints.2 (.inl ⟨edge, hedge, .inl rfl⟩))
    · exact fun edge hedge => hknown _ (mem_endpoints.2 (.inl ⟨edge, hedge, .inr rfl⟩))
    · exact fun mapping hmapping => hknown _ (mem_endpoints.2 (.inr (.inl ⟨mapping, hmapping, rfl⟩)))
    · exact fun mapping hmapping => hknown _ (mem_endpoints.2 (.inr (.inr ⟨mapping, hmapping, rfl⟩)))

/-- What comes out of the check. Only where everything that is named is there, and once, do the edges
count. -/
theorem validateStructure_cases (graph : Graph) (component : ComponentId) :
    (graph.Closed ∧
      graph.validateStructure component =
        if graph.isAcyclic = true then .ok () else .error (.cycle component)) ∨
    (¬ graph.Closed ∧ ∃ node,
      graph.validateStructure component = .error (.duplicateNode component node) ∨
        graph.validateStructure component = .error (.unknownNode component node)) := by
  rw [closed_iff]
  unfold validateStructure
  cases hrepeated : firstRepeated? [] (graph.nodes.map (·.id)) with
  | some node =>
    have hopen : ¬ (some node = none ∧ ∀ id ∈ graph.endpoints, id ∈ graph.nodes.map (·.id)) :=
      fun h => Option.some_ne_none node h.1
    exact .inr ⟨hopen, node, .inl rfl⟩
  | none =>
    cases hunknown : graph.endpoints.find? fun id => !graph.nodes.any (·.id = id) with
    | some node =>
      have hmem := List.mem_of_find?_eq_some hunknown
      have hstray : node ∉ graph.nodes.map (·.id) := by
        simpa using List.find?_some hunknown
      exact .inr ⟨fun h => hstray (h.2 node hmem), node, .inr rfl⟩
    | none =>
      have hknown : ∀ id ∈ graph.endpoints, id ∈ graph.nodes.map (·.id) := by
        simpa using hunknown
      refine .inl ⟨⟨rfl, hknown⟩, ?_⟩
      cases graph.isAcyclic <;> rfl

/-- A graph passes when it is closed and its edges do not lead in a circle. -/
theorem validateStructure_eq_ok {graph : Graph} {id : ComponentId} :
    graph.validateStructure id = .ok () ↔ graph.Closed ∧ graph.isAcyclic = true := by
  rcases graph.validateStructure_cases id with ⟨hclosed, heq⟩ | ⟨hopen, node, heq | heq⟩
  · rw [heq]
    by_cases hacyclic : graph.isAcyclic = true <;> simp [hclosed, hacyclic]
  · simp [heq, hopen]
  · simp [heq, hopen]

end Graph

namespace Implementation

/-- The connections of a map or conditional are its mappings. -/
theorem endpoints_of_mappings (nodes : List Node) (inputs : List InputMapping)
    (outputs : List OutputMapping) :
    Graph.endpoints ⟨nodes, [], inputs, outputs⟩ = mappedNodes inputs outputs := by
  simp [Graph.endpoints, mappedNodes]

/-- Without edges every node goes in the first round. -/
theorem isAcyclic_of_mappings (nodes : List Node) (inputs : List InputMapping)
    (outputs : List OutputMapping) : Graph.isAcyclic ⟨nodes, [], inputs, outputs⟩ = true := by
  cases nodes with
  | nil => rfl
  | cons node nodes =>
    -- What stays after the last round would need an edge.
    rw [Graph.isAcyclic, List.isEmpty_iff, List.eq_nil_iff_forall_not_mem]
    intro id hid
    obtain ⟨-, edge, hedge, -⟩ := Graph.mem_peel_succ.1 hid
    exact absurd hedge List.not_mem_nil

/-- Whatever kind of composite a component is, its check makes it well wired. -/
theorem wellWired_of_validateStructure {implementation : Implementation} {id : ComponentId}
    (h : implementation.validateStructure id = .ok ()) : implementation.wiring.WellWired := by
  cases implementation with
  | brick brick => exact ⟨fun _ hid => absurd hid List.not_mem_nil, rfl⟩
  | any => exact ⟨fun _ hid => absurd hid List.not_mem_nil, rfl⟩
  | graph block =>
    obtain ⟨hclosed, hacyclic⟩ := Graph.validateStructure_eq_ok.1 h
    exact ⟨fun id hid => List.mem_map.1 ((Graph.closed_iff.1 hclosed).2 id hid), hacyclic⟩
  | map block =>
    refine ⟨fun endpoint hendpoint => ?_, isAcyclic_of_mappings _ _ _⟩
    simp only [wiring, MapBlock.wiring, endpoints_of_mappings] at hendpoint
    simp only [validateStructure] at h
    split at h
    · cases h
    · rename_i hnone
      rw [List.find?_eq_none] at hnone
      have hid : endpoint = block.node.id := by simpa using hnone endpoint hendpoint
      exact ⟨block.node, List.mem_singleton_self _, hid.symm⟩
  | conditional block =>
    refine ⟨fun endpoint hendpoint => ?_, isAcyclic_of_mappings _ _ _⟩
    simp only [wiring, Conditional.wiring, endpoints_of_mappings] at hendpoint
    simp only [validateStructure] at h
    split at h
    · cases h
    · rename_i hnone
      rw [List.find?_eq_none] at hnone
      have hbranch : ∃ node ∈ block.branches, node.id = endpoint := by
        simpa [Conditional.isBranch] using hnone endpoint hendpoint
      exact hbranch

end Implementation

namespace Component

theorem validatePorts_eq_ok {id : ComponentId} {direction : Direction} {ports : List Port} :
    validatePorts id direction ports = .ok () ↔ (ports.map (·.name)).Nodup := by
  rw [← firstRepeated?_nil_eq_none, validatePorts]
  cases firstRepeated? [] (ports.map (·.name)) with
  | some port => simp [throw, throwThe, MonadExceptOf.throw]
  | none => simp [pure, Except.pure]

/-- A component passes by itself when it has an identifier, ports of one direction have distinct
names, and its connections are in order. -/
theorem validateSelf_eq_ok {component : Component} :
    component.validateSelf = .ok () ↔
      component.id.isNil = false ∧ (component.inputs.map (·.name)).Nodup ∧
        (component.outputs.map (·.name)).Nodup ∧
        component.implementation.validateStructure component.id = .ok () := by
  unfold validateSelf
  cases hnil : component.id.isNil with
  | true => simp [throw, throwThe, MonadExceptOf.throw, bind, Except.bind]
  | false =>
    simp only [Bool.false_eq_true, if_false, true_and]
    constructor
    · intro h
      obtain ⟨⟨⟩, hinputs, h⟩ := bind_eq_ok.1 h
      obtain ⟨⟨⟩, houtputs, h⟩ := bind_eq_ok.1 h
      exact ⟨validatePorts_eq_ok.1 hinputs, validatePorts_eq_ok.1 houtputs, h⟩
    · rintro ⟨hinputs, houtputs, h⟩
      have hin : validatePorts component.id .input component.inputs = .ok () :=
        validatePorts_eq_ok.2 hinputs
      have hout : validatePorts component.id .output component.outputs = .ok () :=
        validatePorts_eq_ok.2 houtputs
      exact bind_eq_ok.2 ⟨(), hin, bind_eq_ok.2 ⟨(), hout, h⟩⟩

end Component

/-! ## Valid trees -/

theorem Node.validate_eq_ok {node : Node} :
    node.validate = .ok () ↔ ∀ child, node.component? = some child → child.validate = .ok () := by
  obtain ⟨id, target⟩ := node
  cases target with
  | inline component =>
    rw [Node.validate, inside_eq_ok]
    simp [component?, NodeRef.component?]
  | latest _ => simp [Node.validate, component?, NodeRef.component?, pure, Except.pure]
  | pinned _ _ => simp [Node.validate, component?, NodeRef.component?, pure, Except.pure]

theorem Node.validateAll_eq_ok {nodes : List Node} :
    Node.validateAll nodes = .ok () ↔ ∀ node ∈ nodes, node.validate = .ok () := by
  induction nodes with
  | nil => simp [Node.validateAll, pure, Except.pure]
  | cons node nodes ih =>
    rw [Node.validateAll, bind_eq_ok, List.forall_mem_cons, ← ih]
    constructor
    · rintro ⟨_, hnode, hnodes⟩
      exact ⟨hnode, hnodes⟩
    · rintro ⟨hnode, hnodes⟩
      exact ⟨(), hnode, hnodes⟩

namespace Component

/-- A tree is valid when the component at its root is valid by itself and the trees below it are
valid. -/
theorem validate_eq_ok {component : Component} :
    component.validate = .ok () ↔
      component.validateSelf = .ok () ∧
        ∀ child, component.HasChild child → child.validate = .ok () := by
  rw [validate_eq, bind_eq_ok]
  simp only [located_eq_ok, Node.validateAll_eq_ok, Node.validate_eq_ok]
  constructor
  · rintro ⟨_, hself, hbelow⟩
    exact ⟨hself, fun child ⟨node, hnode, hchild⟩ => hbelow node hnode child hchild⟩
  · rintro ⟨hself, hbelow⟩
    exact ⟨(), hself, fun node hnode child hchild => hbelow child ⟨node, hnode, hchild⟩⟩

/-- What the component at the root of a valid tree is by itself. -/
theorem validSelf {component : Component} (h : component.validate = .ok ()) :
    component.id.isNil = false ∧ (component.inputs.map (·.name)).Nodup ∧
      (component.outputs.map (·.name)).Nodup ∧
      component.implementation.validateStructure component.id = .ok () :=
  validateSelf_eq_ok.1 (validate_eq_ok.1 h).1

theorem wellWired {component : Component} (h : component.validate = .ok ()) :
    component.wiring.WellWired :=
  Implementation.wellWired_of_validateStructure (validSelf h).2.2.2

theorem nodup_inputs {component : Component} (h : component.validate = .ok ()) :
    (component.inputs.map (·.name)).Nodup :=
  (validSelf h).2.1

/-- Every tree inside a valid one is valid. -/
theorem Within.valid {component inner : Component} (hinner : component.Within inner)
    (h : component.validate = .ok ()) : inner.validate = .ok () := by
  induction hinner with
  | refl => exact h
  | tail _ hchild ih => exact (validate_eq_ok.1 ih).2 _ hchild

end Component

end Pipeline
