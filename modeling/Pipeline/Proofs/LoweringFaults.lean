/-
Lowering never gets lost.

A valid tree gives a claim no way to end anywhere but at an input or at a dead
end, and no connection that names a node that is not there. Hence none of the
faults that lowering can end in is the fault of a lost walk.

Most of lowering does not look at nodes at all: it fails over ports, values and
bindings of the component at hand, or not at all (`FailsHere`). There remain the
places that look up nodes. Each of them is given a name that validation has found
among the nodes, so what it can meet there is at worst a reference.

What a component may fail with in all is said by a rule (`Component.FaultRule`),
which goes up a tree from children to parents. `Component.allTemplates_failsWith`
holds for every rule of this kind.
-/
import Pipeline.Proofs.ClaimWalk
import Pipeline.Proofs.TemplateParts

set_option autoImplicit false

namespace Pipeline

open Manifest (Arguments Artifact Task Template)

/-! ## Ports -/

theorem Component.input_failsHere (component : Component) (name : String) :
    FailsHere (component.input name) := by
  rw [Component.input]
  split
  · exact FailsWith.ok _
  · exact FailsWith.fault ⟨rfl, trivial⟩

theorem Component.output_failsHere (component : Component) (name : String) :
    FailsHere (component.output name) := by
  rw [Component.output]
  split
  · exact FailsWith.ok _
  · exact FailsWith.fault ⟨rfl, trivial⟩

/-! ## Guards -/

theorem Operand.comparable_failsHere (port : Port) (inputs : List Port) :
    FailsHere (Operand.comparable port inputs) := by
  rw [Operand.comparable]
  split
  · exact FailsWith.fault ⟨rfl, trivial⟩
  · split
    · exact FailsWith.ok _
    · exact FailsWith.fault ⟨rfl, trivial⟩

theorem Operand.guardText_failsHere (operand : Operand) (inputs : List Port) :
    FailsHere (operand.guardText inputs) := by
  cases operand with
  | literal value => exact FailsWith.ok _
  | data port =>
    exact (comparable_failsHere port inputs).bind fun _ _ => FailsWith.ok _

theorem Operand.expressionText_failsHere (operand : Operand) (inputs : List Port)
    (numeric : Bool) : FailsHere (operand.expressionText inputs numeric) := by
  cases operand with
  | literal value => exact FailsWith.ok _
  | data port =>
    exact (comparable_failsHere port inputs).bind fun _ _ => FailsWith.ok _

theorem Condition.guardText_failsHere (condition : Condition) (inputs : List Port) :
    FailsHere (condition.guardText inputs) := by
  refine (condition.left.guardText_failsHere inputs).bind fun left _ => ?_
  refine (condition.right.guardText_failsHere inputs).bind fun right _ => ?_
  exact FailsWith.ok _

theorem Condition.expressionText_failsHere (condition : Condition) (inputs : List Port) :
    FailsHere (condition.expressionText inputs) := by
  refine (condition.left.expressionText_failsHere inputs _).bind fun left _ => ?_
  refine (condition.right.expressionText_failsHere inputs _).bind fun right _ => ?_
  exact FailsWith.ok _

/-! ## Tasks -/

namespace Manifest.Task

theorem fanOut_failsHere (task : Task) (target items : String) :
    FailsHere (task.fanOut target items) := by
  rw [fanOut]
  split
  · exact FailsWith.fault ⟨rfl, trivial⟩
  · exact FailsWith.ok _

end Manifest.Task

/-! ## Nodes -/

/-- Looking up the component under an identifier fails where there is no node of it, or where the
node has no component. -/
theorem Graph.component_failsWith {allowed : LoweringError → Prop} {graph : Graph} {id : String}
    (hunknown : (∀ node ∈ graph.nodes, node.id ≠ id) → allowed (.here (.unknownNode id)))
    (hnodes : ∀ node ∈ graph.nodes, FailsWith allowed node.component) :
    FailsWith allowed (graph.component id) := by
  rw [Graph.component, Graph.node?]
  split
  · rename_i node hfind
    exact hnodes node (List.mem_of_find?_eq_some hfind)
  · rename_i hnone
    exact FailsWith.fault (hunknown (find?_key_eq_none.1 hnone))

/-! ## Outputs -/

theorem Component.connectOutput_failsHere (component : Component)
    (source : OutputMapping → OutputSource) (outputs : Arguments) (mapping : OutputMapping) :
    FailsHere (component.connectOutput source outputs mapping) := by
  refine (component.output_failsHere _).bind fun port _ => ?_
  cases port.type with
  | parameter | parameterArray | artifact | volume => exact FailsWith.ok _
  | envSecret => exact FailsWith.fault ⟨rfl, trivial⟩

theorem Component.connectOutputs_failsHere (component : Component)
    (source : OutputMapping → OutputSource) (mappings : List OutputMapping) :
    FailsHere (component.connectOutputs source mappings) :=
  FailsWith.foldlM fun mapping _ outputs =>
    component.connectOutput_failsHere source outputs mapping

theorem Conditional.outputs_failsHere (conditional : Conditional) (component : Component)
    (taskTrue taskFalse : String) :
    FailsHere (conditional.outputs component taskTrue taskFalse) := by
  rw [Conditional.outputs]
  split
  · exact FailsWith.ok _
  · refine (conditional.condition.expressionText_failsHere _).bind fun expression _ => ?_
    exact component.connectOutputs_failsHere _ _

/-! ## Containers -/

theorem Argument.render_failsHere (argument : Argument) (component : Component)
    (volumes : VolumeScope) : FailsHere (argument.render component volumes) := by
  rw [Argument.render]
  split
  · exact FailsWith.ok _
  · rename_i name override _
    refine (component.input_failsHere name).bind fun port _ => ?_
    have hrendering : FailsHere (Argument.rendering override port) := by
      unfold Argument.rendering
      split
      · exact FailsWith.ok _
      · exact FailsWith.ok _
      · exact FailsWith.fault ⟨rfl, trivial⟩
    refine hrendering.bind fun rendering _ => ?_
    cases rendering with
    | parameter | artifact => exact FailsWith.ok _
    | volume =>
      cases volumes.get? name with
      | none => exact FailsWith.fault ⟨rfl, trivial⟩
      | some volume => exact FailsWith.ok _

theorem SecretScope.variables_failsHere (secrets : SecretScope) (inputs : List Port) :
    FailsHere (secrets.variables inputs) := by
  refine FailsWith.mapM fun port _ => ?_
  cases secrets.get? port.name with
  | none => exact FailsWith.fault ⟨rfl, trivial⟩
  | some secret => exact FailsWith.ok _

theorem Brick.resultFile_failsHere (brick : Brick) (port : Port) :
    FailsHere (brick.resultFile port) := by
  rw [Brick.resultFile]
  split
  · exact FailsWith.ok _
  · exact FailsWith.fault ⟨rfl, trivial⟩

theorem Brick.outputInterface_failsHere (brick : Brick) (ports : List Port) :
    FailsHere (brick.outputInterface ports) := by
  induction ports with
  | nil => exact FailsWith.ok _
  | cons port ports ih =>
    rw [Brick.outputInterface]
    cases port.type with
    | volume | envSecret => exact ih
    | parameter | parameterArray | artifact =>
      refine (brick.resultFile_failsHere port).bind fun path _ => ?_
      exact ih.bind fun rest _ => FailsWith.ok _

theorem Brick.template_failsHere (brick : Brick) (component : Component) (secrets : SecretScope)
    (volumes : VolumeScope) (artifactRoot : String) :
    FailsHere (brick.template component secrets volumes artifactRoot) := by
  refine (FailsWith.mapM fun argument _ =>
    argument.render_failsHere component volumes).bind fun rendered _ => ?_
  refine (secrets.variables_failsHere component.inputs).bind fun secretVariables _ => ?_
  refine (brick.outputInterface_failsHere component.outputs).bind fun outputs _ => ?_
  exact FailsWith.ok _

/-! ## Conditionals -/

theorem Conditional.checkMappings_failsHere (conditional : Conditional) :
    FailsHere conditional.checkMappings := by
  rw [Conditional.checkMappings]
  split
  · exact FailsWith.fault ⟨rfl, trivial⟩
  · split
    · exact FailsWith.fault ⟨rfl, trivial⟩
    · exact FailsWith.ok _

theorem Conditional.checkSymmetry_failsHere (conditional : Conditional) (nodeFalse : Node)
    (whenTrue whenFalse : Component) :
    FailsHere (conditional.checkSymmetry nodeFalse whenTrue whenFalse) := by
  rw [Conditional.checkSymmetry]
  split
  · exact FailsWith.fault ⟨rfl, trivial⟩
  · split
    · exact FailsWith.fault ⟨rfl, trivial⟩
    · exact FailsWith.ok _

/-! ## Rules about faults -/

/-- A rule about what each component may fail with: it allows the faults over what the component has
of its own, and whatever it allows a child to fail with, seen from one place further out. -/
structure Component.FaultRule (allowed : Component → LoweringError → Prop) : Prop where
  own : ∀ component cause, cause.IsOwn → allowed component (.here cause)
  child : ∀ component child error, component.HasChild child → allowed child error →
    allowed component (error.within child.id)

namespace Component.FaultRule

variable {allowed : Component → LoweringError → Prop} {α : Type} {work : Lowered α}

theorem failsWith (h : FaultRule allowed) (component : Component) (hwork : FailsHere work) :
    FailsWith (allowed component) work :=
  FailsHere.failsWith hwork (h.own component)

theorem inside (h : FaultRule allowed) {component child : Component}
    (hchild : component.HasChild child) (hwork : FailsWith (allowed child) work) :
    FailsWith (allowed component) (Pipeline.inside child.id work) :=
  FailsWith.inside (hwork.mono fun error => h.child component child error hchild)

/-- Rules that look at causes only. -/
theorem of_cause {allowed : LoweringFault → Prop} (h : ∀ cause, cause.IsOwn → allowed cause) :
    FaultRule fun _ error => allowed error.cause where
  own := fun _ => h
  child := fun _ _ _ _ herror => herror

end Component.FaultRule

/-! ## Composites -/

section Composites

variable {allowed : Component → LoweringError → Prop} (hrule : Component.FaultRule allowed)

include hrule

namespace Manifest.Task

theorem wireInput_failsWith {parent child : Component} (hchild : parent.HasChild child)
    (task : Task) (mapping : InputMapping) :
    FailsWith (allowed parent) (wireInput parent child task mapping) := by
  refine (hrule.failsWith parent (parent.input_failsHere _)).bind fun outer _ => ?_
  refine FailsWith.bind ?_ fun inner _ => ?_
  · exact hrule.inside hchild (hrule.failsWith child (child.input_failsHere _))
  · cases outer.type with
    | parameterArray => exact hrule.failsWith parent (fanOut_failsHere _ _ _)
    | parameter | artifact | volume | envSecret => exact FailsWith.ok _

theorem wireInputs_failsWith {parent child : Component} (hchild : parent.HasChild child)
    (task : Task) (mappings : List InputMapping) :
    FailsWith (allowed parent) (wireInputs parent child task mappings) :=
  FailsWith.foldlM fun mapping _ task => wireInput_failsWith hrule hchild task mapping

/-- Apart from looking up the sibling, an edge is wired without a look at nodes. -/
theorem wireEdge_failsWith {parent child : Component} (hchild : parent.HasChild child) (task : Task)
    {edge : Edge}
    (hsibling : FailsWith (allowed parent) (parent.wiring.component edge.source.node)) :
    FailsWith (allowed parent) (wireEdge parent.wiring child task edge) := by
  refine hsibling.bind fun sibling hcomponent => ?_
  have hsiblingChild : parent.HasChild sibling := by
    obtain ⟨node, hfind, hnode⟩ := Graph.component_eq_ok.1 hcomponent
    exact Component.hasChild_of_node (List.mem_of_find?_eq_some hfind) hnode
  refine FailsWith.bind ?_ fun output _ => FailsWith.bind ?_ fun inner _ => ?_
  · exact hrule.inside hsiblingChild (hrule.failsWith sibling (sibling.output_failsHere _))
  · exact hrule.inside hchild (hrule.failsWith child (child.input_failsHere _))
  · cases output.type with
    | parameter | artifact | volume => exact FailsWith.ok _
    | envSecret => exact FailsWith.fault (hrule.own parent _ trivial)
    | parameterArray =>
      -- Only a list that a brick puts out is fanned out over.
      cases sibling.implementation with
      | brick brick => exact hrule.failsWith parent (fanOut_failsHere _ _ _)
      | graph _ | map _ | conditional _ | any => exact FailsWith.ok _

end Manifest.Task

section Templates

variable {component : Component}
  (hnodes : ∀ node ∈ component.children, FailsWith (allowed component) node.component)

include hnodes

/-- Apart from what its nodes and the ends of its edges hold, a graph is lowered without a look at
nodes. -/
theorem Graph.template_failsWith {graph : Graph} (h : component.implementation = .graph graph)
    (hedges : ∀ edge ∈ component.wiring.edges,
      FailsWith (allowed component) (component.wiring.component edge.source.node)) :
    FailsWith (allowed component) (graph.template component) := by
  obtain rfl : component.wiring = graph := Component.wiring_eq h
  have htask : ∀ node ∈ component.wiring.nodes,
      FailsWith (allowed component) (component.wiring.task component node) := by
    intro node hnode
    rw [← component.children_eq_nodes] at hnode
    refine (hnodes node hnode).bind fun child hcomponent => ?_
    have hchild : component.HasChild child := ⟨node, hnode, Node.component_eq_ok.1 hcomponent⟩
    refine (Task.wireInputs_failsWith hrule hchild _ _).bind fun mapped _ => ?_
    refine FailsWith.foldlM fun edge hedge task => ?_
    exact Task.wireEdge_failsWith hrule hchild task (hedges edge (List.mem_filter.1 hedge).1)
  refine (FailsWith.mapM htask).bind fun tasks _ => ?_
  refine (hrule.failsWith component (component.connectOutputs_failsHere _ _)).bind
    fun outputs _ => ?_
  exact FailsWith.ok _

theorem MapBlock.template_failsWith {map : MapBlock} (h : component.implementation = .map map)
    (settings : Settings) : FailsWith (allowed component) (map.template component settings) := by
  have hnode : map.node ∈ component.children := by
    simp [Component.children, h, Implementation.children]
  refine FailsWith.bind ?_ fun task _ => ?_
  · refine (hnodes map.node hnode).bind fun child hcomponent => ?_
    have hchild : component.HasChild child := ⟨map.node, hnode, Node.component_eq_ok.1 hcomponent⟩
    exact Task.wireInputs_failsWith hrule hchild _ _
  · refine (hrule.failsWith component (component.connectOutputs_failsHere _ _)).bind
      fun outputs _ => ?_
    exact FailsWith.ok _

theorem Conditional.template_failsWith {conditional : Conditional}
    (h : component.implementation = .conditional conditional) (settings : Settings) :
    FailsWith (allowed component) (conditional.template component settings) := by
  have hbranches : component.children = conditional.branches := by
    rw [Component.children, h, Implementation.children]
  have htrue : conditional.nodeTrue ∈ component.children := by
    rw [hbranches]
    exact List.mem_cons_self
  have hfalse : ∀ whenTrue,
      FailsWith (allowed component) (conditional.componentFalse whenTrue) := by
    intro whenTrue
    rw [Conditional.componentFalse]
    split
    · exact FailsWith.ok _
    · rename_i nodeFalse hnodeFalse
      have hbranch : nodeFalse ∈ component.children := by
        simp [hbranches, Conditional.branches, hnodeFalse]
      refine (hnodes nodeFalse hbranch).bind fun whenFalse _ => ?_
      refine (hrule.failsWith component (conditional.checkSymmetry_failsHere _ _ _)).bind
        fun _ _ => ?_
      exact FailsWith.ok _
  refine (hrule.failsWith component conditional.checkMappings_failsHere).bind fun _ _ => ?_
  refine (hnodes _ htrue).bind fun whenTrue hcomponent => ?_
  have hchild : component.HasChild whenTrue := ⟨_, htrue, Node.component_eq_ok.1 hcomponent⟩
  refine (hfalse whenTrue).bind fun whenFalse _ => ?_
  refine (hrule.failsWith component (conditional.condition.guardText_failsHere _)).bind
    fun guardText _ => ?_
  refine (Task.wireInputs_failsWith hrule hchild _ _).bind fun wired _ => ?_
  refine (hrule.failsWith component (conditional.outputs_failsHere component _ _)).bind
    fun outputs _ => ?_
  exact FailsWith.ok _

/-- The template of a component fails over nodes only where looking up one of its nodes does. -/
theorem Component.template_failsWith (settings : Settings) (scopes : Scopes)
    (hedges : ∀ edge ∈ component.wiring.edges,
      FailsWith (allowed component) (component.wiring.component edge.source.node)) :
    FailsWith (allowed component) (component.template settings scopes) := by
  rw [Component.template]
  split
  · exact hrule.failsWith component (Brick.template_failsHere _ _ _ _ _)
  · exact Graph.template_failsWith hrule hnodes ‹_› hedges
  · exact MapBlock.template_failsWith hrule hnodes ‹_› settings
  · exact Conditional.template_failsWith hrule hnodes ‹_› settings
  · exact FailsWith.fault (hrule.own component _ trivial)

end Templates

/-- What a composite hands down fails over nodes only where one of its claims does. -/
theorem Graph.narrow_failsWith {component : Component} (scopes : Scopes) (claimant : String)
    (child : Component)
    (htrace : ∀ claim, FailsWith (allowed component) (component.wiring.traceInput claim)) :
    FailsWith (allowed component) (component.wiring.narrow scopes claimant child) := by
  refine FailsWith.bind ?_ fun volumes _ => FailsWith.ok _
  refine FailsWith.bind (FailsWith.mapM fun port _ => ?_) fun bindings _ => FailsWith.ok _
  refine (htrace _).bind fun outer _ => ?_
  split
  · exact FailsWith.ok _
  · exact FailsWith.fault (hrule.own component _ trivial)

/-- Over a whole tree: `good` is a property of components that their children share, and under which
neither nodes nor claims make trouble. -/
theorem Component.allTemplates_failsWith (good : Component → Prop) (settings : Settings)
    (hgood : ∀ component child, good component → component.HasChild child → good child)
    (hnodes : ∀ component, good component → ∀ node ∈ component.children,
      FailsWith (allowed component) node.component)
    (hedges : ∀ component, good component → ∀ edge ∈ component.wiring.edges,
      FailsWith (allowed component) (component.wiring.component edge.source.node))
    (htrace : ∀ component, good component → ∀ claim,
      FailsWith (allowed component) (component.wiring.traceInput claim))
    (component : Component) (h : good component) (scopes : Scopes) :
    FailsWith (allowed component) (component.allTemplates settings scopes) := by
  -- The component itself, then each node: first what is handed down to it, then the tree there.
  induction component using Component.induction generalizing scopes with
  | step component ih =>
    rw [Component.allTemplates_eq]
    refine (component.template_failsWith hrule (hnodes component h) settings scopes
      (hedges component h)).bind fun own _ => ?_
    refine (FailsWith.mapM fun claim hclaim => ?_).bind fun below _ => FailsWith.ok _
    obtain ⟨claimant, node⟩ := claim
    cases hcomponent : node.component? with
    | some child =>
      have hchild := Component.hasChild_of_claimant hclaim hcomponent
      rw [Node.templates_of_component settings _ hcomponent]
      refine (Graph.narrow_failsWith hrule scopes claimant child (htrace component h)).bind
        fun inner _ => ?_
      exact hrule.inside hchild (ih child hchild (hgood component child h hchild) inner)
    | none =>
      have hmem : node ∈ component.children := by
        rw [Component.children_eq_map_claimants]
        exact List.mem_map.2 ⟨_, hclaim, rfl⟩
      -- The node fails in the same way when it is asked for its component.
      rw [Node.templates_of_reference settings _ hcomponent]
      have hreference := Node.component_of_reference hcomponent
      exact FailsWith.fault (hnodes component h node hmem _ hreference)

end Composites

/-- Over a whole tree, for the causes alone. -/
theorem Component.allTemplates_failsOnly {allowed : LoweringFault → Prop}
    (hown : ∀ cause, cause.IsOwn → allowed cause) (good : Component → Prop) (settings : Settings)
    (hgood : ∀ component child, good component → component.HasChild child → good child)
    (hnodes : ∀ component, good component → ∀ node ∈ component.children,
      FailsOnly allowed node.component)
    (hedges : ∀ component, good component → ∀ edge ∈ component.wiring.edges,
      FailsOnly allowed (component.wiring.component edge.source.node))
    (htrace : ∀ component, good component → ∀ claim,
      FailsOnly allowed (component.wiring.traceInput claim))
    (component : Component) (h : good component) (scopes : Scopes) :
    FailsOnly allowed (component.allTemplates settings scopes) :=
  allTemplates_failsWith (FaultRule.of_cause hown) good settings hgood hnodes hedges htrace
    component h scopes

/-! ## Valid trees -/

theorem Graph.component_neverLost {graph : Graph} {id : String}
    (hknown : ∃ node ∈ graph.nodes, node.id = id) : NeverLost (graph.component id) := by
  refine Graph.component_failsWith (fun hnone => ?_) fun node _ => node.component_neverLost
  obtain ⟨node, hnode, hid⟩ := hknown
  exact absurd hid (hnone node hnode)

theorem Component.allTemplates_neverLost {component : Component} (h : component.validate = .ok ())
    (settings : Settings) (scopes : Scopes) :
    NeverLost (component.allTemplates settings scopes) := by
  have hown : ∀ cause : LoweringFault, cause.IsOwn → ¬ cause.IsLost :=
    fun _ hown => mt LoweringFault.IsLost.isAboutNodes hown.not_isAboutNodes
  refine allTemplates_failsOnly hown (fun component => component.validate = .ok ()) settings
    ?_ ?_ ?_ ?_ component h scopes
  · exact fun component child hvalid hchild => (validate_eq_ok.1 hvalid).2 child hchild
  · exact fun component _ node _ => node.component_neverLost
  · exact fun component hvalid edge hedge =>
      Graph.component_neverLost ((wellWired hvalid).known_source hedge)
  · exact fun component hvalid claim => traceInput_neverLost hvalid claim

/-- A tree that is not valid is refused by its validation; of the causes for that nothing but their
kind is said here. -/
theorem Component.templates_failsOnly {allowed : LoweringFault → Prop} {component : Component}
    {settings : Settings} {scopes : Scopes} (hinvalid : ∀ error, allowed (.invalid error))
    (h : component.validate = .ok () → FailsOnly allowed (component.allTemplates settings scopes)) :
    FailsOnly allowed (component.templates settings scopes) := by
  refine FailsOnly.map Template.distinct ?_
  unfold templatesWithRepeats
  cases hvalidate : component.validate with
  | error cause => exact FailsOnly.bind (FailsOnly.fault (hinvalid cause)) fun _ h => nomatch h
  | ok _ => exact (h hvalidate).inside

/-- Whether or not the tree is valid. -/
theorem Component.templates_neverLost (component : Component) (settings : Settings)
    (scopes : Scopes) : NeverLost (component.templates settings scopes) :=
  templates_failsOnly (fun _ => not_false) fun hvalid =>
    allTemplates_neverLost hvalid settings scopes

/-- **Lowering never gets lost.** No tree whatever, under whatever scopes and settings, is refused
because a node that is asked for is not there or because a claim goes round in circles. This is owed
to the validation: in a tree that passed it, every claim of every composite comes to its end within
the bound of the walk, so that a larger bound would change nothing, and so does every question for
the input behind an output; and every end of a connection is found. -/
theorem Component.lowering_never_lost (component : Component) (settings : Settings)
    (scopes : Scopes) :
    (∀ error, component.templates settings scopes = .error error → ¬ error.cause.IsLost) ∧
      (component.validate = .ok () → ∀ inner, component.Within inner →
        (∀ claim, NeverLost (inner.wiring.traceInput claim)) ∧
        (∀ claim extra,
          inner.wiring.trace (Node.carriedAt inner.wiring.nodes)
            (inner.wiring.traceBound + extra) claim = inner.wiring.traceInput claim) ∧
        (∀ port, NeverLost (inner.carried port)) ∧
        ∀ id ∈ inner.wiring.endpoints, (inner.wiring.node? id).isSome) := by
  constructor
  · exact component.templates_neverLost settings scopes
  · intro hvalid inner hinner
    have hvalidInner := hinner.valid hvalid
    refine ⟨traceInput_neverLost hvalidInner, fun claim extra => ?_,
      inner.carried_neverLost hvalidInner, fun id hid => ?_⟩
    · exact (wellWired hvalidInner).trace_bound_stable claim extra
    · obtain ⟨node, -, hfind⟩ := exists_find? ((wellWired hvalidInner).known id hid)
      rw [Graph.node?, hfind]
      rfl

/-- Two bricks in a row, and nothing that gives the first one its volume. -/
def Component.volumeDeadEnd : Component :=
  volumeGraph 3 [] [] ⟨[⟨"a", .inline (volumeBrick 1)⟩, ⟨"b", .inline (volumeBrick 2)⟩],
    [⟨⟨"a", "out"⟩, ⟨"b", "in"⟩⟩], [], []⟩

/-- The tree with a dead end passes its validation and is refused, but not as lost. -/
theorem Component.volumeDeadEnd_not_lost :
    volumeDeadEnd.validate = .ok () ∧
      volumeDeadEnd.templates .default .empty =
        .error ⟨[volumeDeadEnd.id], .unresolvedClaim "a" "in"⟩ ∧
      ¬ (LoweringFault.unresolvedClaim "a" "in").IsLost ∧
      NeverLost (volumeDeadEnd.wiring.traceInput ⟨"b", "in"⟩) := by
  have hvalid : volumeDeadEnd.validate = .ok () := by decide
  have hfails : volumeDeadEnd.templates .default .empty =
      .error ⟨[volumeDeadEnd.id], .unresolvedClaim "a" "in"⟩ := by decide
  have hnever := lowering_never_lost volumeDeadEnd .default .empty
  exact ⟨hvalid, hfails, hnever.1 _ hfails, (hnever.2 hvalid _ (Within.refl _)).1 _⟩

end Pipeline
