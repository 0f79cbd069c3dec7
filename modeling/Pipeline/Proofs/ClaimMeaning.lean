/-
What a claim means.

A claim on an input of a node is a question for one of the inputs of the
composite around it: the one whose volume arrives there. The meaning of the
question is given by two relations, each used by the other. A claim is *backed*
by an input that is mapped to it, or else by whatever backs, at the beginning of
an edge into it, the input that the node there *carries* to the output. A brick
carries the volume that it mounts; a composite carries whatever backs, inside it,
the claim behind an output mapping.

The relations know neither bounds nor which mapping comes first. The walks do,
and still answer exactly as the relations say. An answer of a walk is always
right (`Component.traceInput_sound`). Where each port has but one source, every
claim that is backed is answered, and by that input: a derivation is a walk with
some number of steps, and the bound of the walk is enough for every number
(`Graph.WellWired.trace_bound_stable`).
-/
import Pipeline.Proofs.ClaimWalk

set_option autoImplicit false

namespace Pipeline

/-! ## The relations -/

mutual

/-- The component puts out at the port the volume that it takes in at the input. -/
inductive Component.Carries : Component → String → String → Prop where
  /-- A brick, by a result that is a volume. -/
  | result {component : Component} {brick : Brick} {port input : String}
      (hbrick : component.implementation = .brick brick)
      (hresult : ⟨port, .volume input⟩ ∈ brick.results) :
      Component.Carries component port input
  /-- A composite, by an output mapping from a child. -/
  | mapped {component child : Component} {mapping : OutputMapping} {node : Node}
      {inner outer : String} (hmapping : mapping ∈ component.wiring.outputMappings)
      (hnode : node ∈ component.wiring.nodes) (hid : node.id = mapping.source.node)
      (hchild : node.component? = some child)
      (hcarries : Component.Carries child mapping.source.port inner)
      (hbacked : Graph.Backed component.wiring ⟨mapping.source.node, inner⟩ outer) :
      Component.Carries component mapping.target outer

/-- The volume that is claimed inside the scope arrives there at the input. -/
inductive Graph.Backed : Graph → PortRef → String → Prop where
  /-- By a mapping from the input. -/
  | mapping {graph : Graph} {mapping : InputMapping} (hmapping : mapping ∈ graph.inputMappings) :
      Graph.Backed graph mapping.target mapping.source
  /-- By an edge, where there is no mapping. -/
  | edge {graph : Graph} {edge : Edge} {node : Node} {child : Component} {inner outer : String}
      (hunmapped : ∀ mapping ∈ graph.inputMappings, mapping.target ≠ edge.target)
      (hedge : edge ∈ graph.edges) (hnode : node ∈ graph.nodes) (hid : node.id = edge.source.node)
      (hchild : node.component? = some child)
      (hcarries : Component.Carries child edge.source.port inner)
      (hbacked : Graph.Backed graph ⟨edge.source.node, inner⟩ outer) :
      Graph.Backed graph edge.target outer

end

/-- Nothing in the component has two sources of one kind: sibling nodes have distinct identifiers, an
input of a child is the target of one mapping and of one edge at most, an output of a composite of
one mapping, and an output of a brick of one result. -/
structure Component.SingleSourced (component : Component) : Prop where
  nodes : (component.wiring.nodes.map (·.id)).Nodup
  mappings : (component.wiring.inputMappings.map (·.target)).Nodup
  edges : (component.wiring.edges.map (·.target)).Nodup
  outputs : (component.wiring.outputMappings.map (·.target)).Nodup
  results : ∀ brick, component.implementation = .brick brick → (brick.results.map (·.port)).Nodup

/-! ## Answers are right -/

/-- Whenever a list of nodes answers for an output, one of them carries it. -/
def Node.CarriedIn (nodes : List Node) (ref : PortRef) (inner : String) : Prop :=
  ∃ node ∈ nodes, node.id = ref.node ∧
    ∃ child, node.component? = some child ∧ child.Carries ref.port inner

theorem Brick.mem_results_of_backing? {brick : Brick} {port input : String}
    (h : brick.backing? port = some input) : ⟨port, .volume input⟩ ∈ brick.results := by
  rw [Brick.backing?, Brick.result?] at h
  cases hfind : brick.results.find? (·.port = port) with
  | none => simp [hfind] at h
  | some result =>
    obtain ⟨resultPort, source⟩ := result
    have hmem := List.mem_of_find?_eq_some hfind
    obtain rfl : resultPort = port := key_of_find? hfind
    cases source with
    | file path => simp [hfind] at h
    | volume name =>
      obtain rfl : name = input := by simpa [hfind] using h
      exact hmem

/-- A walk that is told the truth about the nodes tells the truth about the claim. -/
theorem Graph.trace_sound {graph : Graph} {carried : PortRef → Lowered (Option String)}
    (hcarried : ∀ ref inner, carried ref = .ok (some inner) → Node.CarriedIn graph.nodes ref inner)
    {steps : Nat} {claim : PortRef} {outer : String}
    (h : graph.trace carried steps claim = .ok outer) : graph.Backed claim outer := by
  -- The steps of the walk become the constructors of the derivation, from its end backwards.
  induction steps generalizing claim with
  | zero => cases h
  | succ steps ih =>
    rcases trace_succ_eq_ok.1 h with
      ⟨mapping, hmapping, rfl⟩ | ⟨hnone, edge, inner, hedge, hinner, hrest⟩
    · obtain rfl : mapping.target = claim := key_of_find? hmapping
      exact .mapping (List.mem_of_find?_eq_some hmapping)
    · obtain rfl : edge.target = claim := key_of_find? hedge
      obtain ⟨node, hnode, hid, child, hchild, hcarries⟩ := hcarried _ _ hinner
      -- No mapping was found, so there is none.
      exact .edge (find?_key_eq_none.1 hnone) (List.mem_of_find?_eq_some hedge) hnode hid hchild
        hcarries (ih hrest)

theorem Node.carriedAt_sound {nodes : List Node}
    (hchildren : ∀ node ∈ nodes, ∀ child, node.component? = some child →
      ∀ port inner, child.carried port = .ok (some inner) → child.Carries port inner)
    {ref : PortRef} {inner : String} (h : Node.carriedAt nodes ref = .ok (some inner)) :
    Node.CarriedIn nodes ref inner := by
  obtain ⟨node, child, hfind, hchild, hcarried⟩ := Node.carriedAt_eq_ok.1 h
  have hnode := List.mem_of_find?_eq_some hfind
  have hcarries := hchildren node hnode child hchild _ _ hcarried
  exact ⟨node, hnode, key_of_find? hfind, child, hchild, hcarries⟩

namespace Component

/-- An input that a component names as the one behind an output is the one that it carries there. -/
theorem carried_sound (component : Component) {port input : String}
    (h : component.carried port = .ok (some input)) : component.Carries port input := by
  induction component using Component.induction generalizing port input with
  | step component ih =>
    rcases component.brick_or_composite with ⟨brick, hbrick⟩ | hcomposite
    · rw [carried_of_brick port hbrick] at h
      exact .result hbrick (Brick.mem_results_of_backing? (Except.ok.inj h))
    · rw [carried_of_composite port hcomposite] at h
      -- The children tell the truth, so the walks among them do.
      have hcarried : ∀ ref inner, Node.carriedAt component.wiring.nodes ref = .ok (some inner) →
          Node.CarriedIn component.wiring.nodes ref inner :=
        fun ref inner => Node.carriedAt_sound fun node hnode child hchild port inner =>
          ih child (hasChild_of_node hnode hchild)
      obtain ⟨mapping, inner, hmapping, hinner, houter⟩ := Graph.traceOutput_eq_ok.1 h
      obtain rfl : mapping.target = port := key_of_find? hmapping
      obtain ⟨node, hnode, hid, child, hchild, hcarries⟩ := hcarried _ _ hinner
      exact .mapped (List.mem_of_find?_eq_some hmapping) hnode hid hchild hcarries
        (Graph.trace_sound hcarried houter)

end Component

/-! ## What is backed is answered -/

theorem Brick.backing?_of_mem_results {brick : Brick} {port input : String}
    (hdistinct : (brick.results.map (·.port)).Nodup)
    (hmem : ⟨port, .volume input⟩ ∈ brick.results) : brick.backing? port = some input := by
  rw [Brick.backing?, Brick.result?, find?_of_nodup hdistinct hmem]
  rfl

/-- Induction along the edges behind a claim. What the nodes on the way carry is left as it is. -/
theorem Graph.Backed.edge_induction {graph : Graph} {motive : PortRef → String → Prop}
    (mapping : ∀ mapping ∈ graph.inputMappings, motive mapping.target mapping.source)
    (edge : ∀ edge ∈ graph.edges, ∀ inner outer,
      (∀ mapping ∈ graph.inputMappings, mapping.target ≠ edge.target) →
      Node.CarriedIn graph.nodes edge.source inner → motive ⟨edge.source.node, inner⟩ outer →
      motive edge.target outer)
    {claim : PortRef} {outer : String} (h : graph.Backed claim outer) : motive claim outer := by
  -- The two relations are defined together; of the other one nothing is claimed, and the scope of
  -- the derivation has to be kept apart from the scopes further inside.
  refine @Graph.Backed.rec (fun _ _ _ _ => True)
    (fun scope claim outer _ => scope = graph → motive claim outer)
    (fun _ _ => trivial) (fun _ _ _ _ _ _ _ _ => trivial) ?_ ?_ _ _ _ h rfl
  · rintro _ found hmapping rfl
    exact mapping found hmapping
  · rintro _ found node child inner outer hunmapped hedge hnode hid hchild hcarries - - ih rfl
    exact edge found hedge inner outer hunmapped ⟨node, hnode, hid, child, hchild, hcarries⟩ (ih rfl)

/-- A claim that is backed is answered by a walk with enough steps. -/
theorem Graph.Backed.exists_trace {graph : Graph} {carried : PortRef → Lowered (Option String)}
    {claim : PortRef} {outer : String} (hbacked : graph.Backed claim outer)
    (hmappings : (graph.inputMappings.map (·.target)).Nodup)
    (hedges : (graph.edges.map (·.target)).Nodup)
    (hcarried : ∀ ref inner, Node.CarriedIn graph.nodes ref inner →
      carried ref = .ok (some inner)) :
    ∃ steps, graph.trace carried steps claim = .ok outer := by
  refine edge_induction
    (motive := fun claim outer => ∃ steps, graph.trace carried steps claim = .ok outer) ?_ ?_ hbacked
  -- A mapping answers in one step, since no other one has its target.
  · intro mapping hmapping
    exact ⟨1, trace_succ_eq_ok.2 (.inl ⟨mapping, find?_of_nodup hmappings hmapping, rfl⟩)⟩
  -- An edge takes one step more than what comes behind it.
  · rintro edge hedge inner outer hunmapped hinner ⟨steps, hsteps⟩
    have hnone : graph.inputMappings.find? (·.target = edge.target) = none :=
      find?_key_eq_none.2 hunmapped
    refine ⟨steps + 1, trace_succ_eq_ok.2 (.inr ⟨hnone, edge, inner, ?_, ?_, hsteps⟩)⟩
    · exact find?_of_nodup hedges hedge
    · exact hcarried edge.source inner hinner

/-- A claim that is backed is answered within the bound of the walk. -/
theorem Graph.WellWired.trace_complete {graph : Graph} (h : graph.WellWired)
    {carried : PortRef → Lowered (Option String)} {claim : PortRef} {outer : String}
    (hmappings : (graph.inputMappings.map (·.target)).Nodup)
    (hedges : (graph.edges.map (·.target)).Nodup)
    (hcarried : ∀ ref inner, Node.CarriedIn graph.nodes ref inner →
      carried ref = .ok (some inner))
    (hbacked : graph.Backed claim outer) :
    graph.trace carried graph.traceBound claim = .ok outer := by
  obtain ⟨steps, hsteps⟩ := hbacked.exists_trace hmappings hedges hcarried
  calc graph.trace carried graph.traceBound claim
      = graph.trace carried (graph.traceBound + steps) claim :=
        (h.trace_bound_stable claim steps).symm
    _ = graph.trace carried (steps + graph.traceBound) claim := by rw [Nat.add_comm]
    _ = .ok outer := graph.trace_of_ok hsteps graph.traceBound

theorem Node.carriedAt_complete {nodes : List Node} (hdistinct : (nodes.map (·.id)).Nodup)
    (hchildren : ∀ node ∈ nodes, ∀ child, node.component? = some child →
      ∀ port inner, child.Carries port inner → child.carried port = .ok (some inner))
    {ref : PortRef} {inner : String} (h : Node.CarriedIn nodes ref inner) :
    Node.carriedAt nodes ref = .ok (some inner) := by
  obtain ⟨node, hnode, hid, child, hchild, hcarries⟩ := h
  refine Node.carriedAt_eq_ok.2 ⟨node, child, ?_, hchild, ?_⟩
  · rw [← hid]
    exact find?_of_nodup hdistinct hnode
  · exact hchildren node hnode child hchild _ _ hcarries

namespace Component

/-- In a valid tree where nothing has two sources, a component that carries an input to an output
names it as the one behind the output. -/
theorem carried_complete (component : Component) (hvalid : component.validate = .ok ())
    (hsingle : ∀ inner, component.Within inner → inner.SingleSourced) {port input : String}
    (h : component.Carries port input) : component.carried port = .ok (some input) := by
  induction component using Component.induction generalizing port input with
  | step component ih =>
    have hown := hsingle component (Within.refl component)
    cases h with
    | result hbrick hresult =>
      rw [carried_of_brick port hbrick,
        Brick.backing?_of_mem_results (hown.results _ hbrick) hresult]
    | @mapped _ child mapping node inner _ hmapping hnode hid hchild hcarries hbacked =>
      have hwired := wellWired hvalid
      have hcarried : ∀ ref inner, Node.CarriedIn component.wiring.nodes ref inner →
          Node.carriedAt component.wiring.nodes ref = .ok (some inner) := by
        refine fun ref inner => Node.carriedAt_complete hown.nodes fun node hnode child hchild => ?_
        have hhas := hasChild_of_node hnode hchild
        exact fun port inner => ih child hhas ((validate_eq_ok.1 hvalid).2 child hhas)
          fun below hbelow => hsingle below (hbelow.below hhas)
      -- Only a composite has an output mapping.
      have hcomposite : component.IsComposite := by
        intro brick hbrick
        simp [wiring, hbrick, Implementation.wiring, Graph.empty] at hmapping
      rw [carried_of_composite _ hcomposite]
      refine Graph.traceOutput_eq_ok.2 ⟨mapping, inner, ?_, ?_, ?_⟩
      · exact find?_of_nodup hown.outputs hmapping
      · exact hcarried _ _ ⟨node, hnode, hid, child, hchild, hcarries⟩
      · exact hwired.trace_complete hown.mappings hown.edges hcarried hbacked

/-- An answer of a walk is an input that backs the claim. -/
theorem traceInput_sound (component : Component) {claim : PortRef} {outer : String}
    (h : component.wiring.traceInput claim = .ok outer) : component.wiring.Backed claim outer := by
  refine Graph.trace_sound (fun ref inner => ?_) h
  exact Node.carriedAt_sound fun _ _ child _ _ _ => child.carried_sound

/-- In a valid tree where nothing has two sources, an input that backs a claim is its answer. -/
theorem traceInput_complete (component : Component) (hvalid : component.validate = .ok ())
    (hsingle : ∀ inner, component.Within inner → inner.SingleSourced) {claim : PortRef}
    {outer : String} (h : component.wiring.Backed claim outer) :
    component.wiring.traceInput claim = .ok outer := by
  have hown := hsingle component (Within.refl component)
  refine (wellWired hvalid).trace_complete hown.mappings hown.edges (fun ref inner => ?_) h
  refine Node.carriedAt_complete hown.nodes fun node hnode child hchild port inner => ?_
  have hhas := hasChild_of_node hnode hchild
  exact child.carried_complete ((validate_eq_ok.1 hvalid).2 child hhas)
    fun below hbelow => hsingle below (hbelow.below hhas)

/-- **A claim is answered by what backs it.** In a valid tree where nothing has two sources, the walk
from a claim ends at an input of the composite exactly when the claim is backed by that input, and a
component names an input as the one behind an output exactly when it carries the one to the other. -/
theorem claims_answered_iff (component : Component) (hvalid : component.validate = .ok ())
    (hsingle : ∀ inner, component.Within inner → inner.SingleSourced) :
    (∀ claim outer, component.wiring.traceInput claim = .ok outer ↔
      component.wiring.Backed claim outer) ∧
    ∀ port input, component.carried port = .ok (some input) ↔ component.Carries port input :=
  ⟨fun _ _ => ⟨component.traceInput_sound, component.traceInput_complete hvalid hsingle⟩,
    fun _ _ => ⟨component.carried_sound, component.carried_complete hvalid hsingle⟩⟩

/-- Three bricks in a row that hand one volume on, as a graph that takes it in and puts it out. -/
def volumeChain : Component :=
  volumeGraph 4 ["volume"] ["volume"]
    ⟨[⟨"a", .inline (volumeBrick 1)⟩, ⟨"b", .inline (volumeBrick 2)⟩,
        ⟨"c", .inline (volumeBrick 3)⟩],
      [⟨⟨"a", "out"⟩, ⟨"b", "in"⟩⟩, ⟨⟨"b", "out"⟩, ⟨"c", "in"⟩⟩],
      [⟨"volume", ⟨"a", "in"⟩⟩], [⟨⟨"c", "out"⟩, "volume"⟩]⟩

/-- A chain inside a graph, with a brick behind it. -/
def nestedChain : Component :=
  volumeGraph 5 ["shared"] ["volume"]
    ⟨[⟨"chain", .inline volumeChain⟩, ⟨"last", .inline (volumeBrick 1)⟩],
      [⟨⟨"chain", "volume"⟩, ⟨"last", "in"⟩⟩],
      [⟨"shared", ⟨"chain", "volume"⟩⟩], [⟨⟨"last", "out"⟩, "volume"⟩]⟩

theorem volumeBrick_singleSourced (number : Nat) : (volumeBrick number).SingleSourced := by
  refine ⟨List.nodup_nil, List.nodup_nil, List.nodup_nil, List.nodup_nil, fun brick hbrick => ?_⟩
  cases hbrick
  simp

theorem volumeGraph_singleSourced {number : Nat} {inputs outputs : List String} {graph : Graph}
    (hnodes : (graph.nodes.map (·.id)).Nodup)
    (hmappings : (graph.inputMappings.map (·.target)).Nodup)
    (hedges : (graph.edges.map (·.target)).Nodup)
    (houtputs : (graph.outputMappings.map (·.target)).Nodup) :
    (volumeGraph number inputs outputs graph).SingleSourced :=
  ⟨hnodes, hmappings, hedges, houtputs, fun _ hbrick => nomatch hbrick⟩

theorem nestedChain_singleSourced {inner : Component} (h : nestedChain.Within inner) :
    inner.SingleSourced := by
  simp only [nestedChain, volumeChain, within_volumeGraph, within_volumeBrick, List.mem_cons,
    List.not_mem_nil, or_false, exists_eq_or_imp, exists_eq_left, Node.component?,
    NodeRef.component?, Option.some.injEq, exists_eq_left'] at h
  rcases h with rfl | (rfl | rfl | rfl | rfl) | rfl
  · exact volumeGraph_singleSourced (by decide) (by decide) (by decide) (by decide)
  · exact volumeGraph_singleSourced (by decide) (by decide) (by decide) (by decide)
  · exact volumeBrick_singleSourced _
  · exact volumeBrick_singleSourced _
  · exact volumeBrick_singleSourced _
  · exact volumeBrick_singleSourced _

/-- The claim behind the chain is backed from outside, all the way through the chain. -/
theorem nestedChain_backed :
    nestedChain.wiring.Backed ⟨"last", "in"⟩ "shared" ∧ nestedChain.Carries "volume" "shared" := by
  have hvalid : nestedChain.validate = .ok () := by decide
  have hanswers := claims_answered_iff nestedChain hvalid fun _ => nestedChain_singleSourced
  exact ⟨(hanswers.1 _ _).1 (by decide), (hanswers.2 _ _).1 (by decide)⟩

end Component

end Pipeline
