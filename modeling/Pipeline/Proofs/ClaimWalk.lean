/-
Claims come to an end.

A claim walks against the edges of a composite. In a well wired composite each
step leads to a node that is taken away in an earlier round than the one before
(`Graph.source_notMem_peel`), so a walk from a node that is gone after so many
rounds has at most one step more than that. Two things follow, by one induction
on the rounds (`Graph.WellWired.walk_induction`): the walk never runs into its
bound, and a larger bound would not change its answer.

The walk asks the nodes on its way which of their inputs backs an output, and
those start walks of their own. `Component.carried_neverLost` goes through the
whole tree; it needs nothing of it but that it passed its validation.
-/
import Pipeline.Proofs.WellWired

set_option autoImplicit false

namespace Pipeline

/-! ## One walk -/

namespace Graph

variable {graph : Graph} {carried : PortRef → Lowered (Option String)}

/-- A walk finds its answer by the first mapping into its claim, or else goes on behind the first
edge into it. -/
theorem trace_succ_eq_ok {steps : Nat} {claim : PortRef} {outer : String} :
    graph.trace carried (steps + 1) claim = .ok outer ↔
      (∃ mapping, graph.inputMappings.find? (·.target = claim) = some mapping ∧
        mapping.source = outer) ∨
      graph.inputMappings.find? (·.target = claim) = none ∧
        ∃ edge inner, graph.edges.find? (·.target = claim) = some edge ∧
          carried edge.source = .ok (some inner) ∧
          graph.trace carried steps ⟨edge.source.node, inner⟩ = .ok outer := by
  rw [trace]
  cases graph.inputMappings.find? (·.target = claim) with
  | some mapping => simp
  | none =>
    cases graph.edges.find? (·.target = claim) with
    | none => simp [fault]
    | some edge =>
      rw [bind_eq_ok]
      constructor
      · rintro ⟨answer, hanswer, h⟩
        cases answer with
        | none => cases h
        | some inner => exact .inr ⟨rfl, edge, inner, rfl, hanswer, h⟩
      · rintro (⟨_, hnone, -⟩ | ⟨-, found, inner, hedge, hinner, h⟩)
        · cases hnone
        · obtain rfl := Option.some.inj hedge
          exact ⟨some inner, hinner, h⟩

/-- An output of a composite is backed by an input when the first mapping to the output is from one
that is backed, and the claim on what backs that one is answered by the input. -/
theorem traceOutput_eq_ok {port outer : String} :
    graph.traceOutput carried port = .ok (some outer) ↔
      ∃ mapping inner, graph.outputMappings.find? (·.target = port) = some mapping ∧
        carried mapping.source = .ok (some inner) ∧
        graph.trace carried graph.traceBound ⟨mapping.source.node, inner⟩ = .ok outer := by
  rw [traceOutput]
  cases graph.outputMappings.find? (·.target = port) with
  | none => simp
  | some mapping =>
    rw [bind_eq_ok]
    constructor
    · rintro ⟨answer, hanswer, h⟩
      cases answer with
      | none => cases h
      | some inner =>
        obtain ⟨found, hfound, h⟩ := bind_eq_ok.1 h
        obtain rfl := Option.some.inj (pure_eq_ok.1 h)
        exact ⟨mapping, inner, rfl, hanswer, hfound⟩
    · rintro ⟨found, inner, hmapping, hinner, h⟩
      obtain rfl := Option.some.inj hmapping
      exact ⟨some inner, hinner, bind_eq_ok.2 ⟨outer, h, rfl⟩⟩

/-- What holds at the ends of edges once it holds, a round earlier, at their beginnings, holds at
every node that is gone in time. -/
theorem WellWired.walk_induction (h : graph.WellWired) {motive : Nat → String → Prop}
    (step : ∀ rounds id,
      (∀ edge ∈ graph.edges, edge.target.node = id →
        ∃ earlier, rounds = earlier + 1 ∧ motive earlier edge.source.node) → motive rounds id)
    (rounds : Nat) (id : String)
    (hgone : id ∉ peel graph.edges rounds (graph.nodes.map (·.id))) : motive rounds id := by
  induction rounds generalizing id with
  | zero =>
    -- What was never there has no edge into it.
    refine step 0 id fun edge hedge htarget => ?_
    obtain ⟨node, hnode, hid⟩ := h.known_target hedge
    exact absurd (List.mem_map.2 ⟨node, hnode, hid.trans htarget⟩) hgone
  | succ rounds ih =>
    refine step (rounds + 1) id fun edge hedge htarget => ⟨rounds, rfl, ih _ ?_⟩
    obtain ⟨node, hnode, hid⟩ := h.known_target hedge
    refine source_notMem_peel hedge (List.mem_map.2 ⟨node, hnode, hid⟩) ?_
    rwa [htarget]

section Faults

variable {allowed : LoweringError → Prop}

/-- A walk fails at a dead end, or where asking the node behind an edge does, or where the rest of
the walk does. -/
theorem trace_succ_failsWith {steps : Nat} {claim : PortRef}
    (hdead : ∀ node port, allowed (.here (.unresolvedClaim node port)))
    (hcarried : ∀ edge ∈ graph.edges, FailsWith allowed (carried edge.source))
    (hrest : ∀ edge ∈ graph.edges, edge.target = claim → ∀ input,
      FailsWith allowed (graph.trace carried steps ⟨edge.source.node, input⟩)) :
    FailsWith allowed (graph.trace carried (steps + 1) claim) := by
  rw [trace]
  split
  · exact FailsWith.ok _
  · split
    · exact FailsWith.fault (hdead _ _)
    · rename_i edge hedge
      have hmem := List.mem_of_find?_eq_some hedge
      refine (hcarried edge hmem).bind fun answer _ => ?_
      cases answer with
      | none => exact FailsWith.fault (hdead _ _)
      | some input => exact hrest edge hmem (key_of_find? hedge) input

/-- The question for an output fails where asking a node for it does, or where the claim on what
backs it does. -/
theorem traceOutput_failsWith
    (hcarried : ∀ mapping ∈ graph.outputMappings, FailsWith allowed (carried mapping.source))
    (htrace : ∀ claim, FailsWith allowed (graph.trace carried graph.traceBound claim))
    (port : String) : FailsWith allowed (graph.traceOutput carried port) := by
  rw [traceOutput]
  split
  · exact FailsWith.ok _
  · rename_i mapping hmapping
    refine (hcarried mapping (List.mem_of_find?_eq_some hmapping)).bind fun answer _ => ?_
    cases answer with
    | none => exact FailsWith.ok _
    | some inner => exact (htrace _).bind fun outer _ => FailsWith.ok _

end Faults

/-- A walk that asks nothing that gets lost does not get lost itself. -/
theorem WellWired.trace_neverLost (h : graph.WellWired)
    (hcarried : ∀ edge ∈ graph.edges, NeverLost (carried edge.source)) (rounds : Nat) (id : String)
    (hgone : id ∉ peel graph.edges rounds (graph.nodes.map (·.id))) (port : String) :
    NeverLost (graph.trace carried (rounds + 1) ⟨id, port⟩) := by
  refine h.walk_induction
    (motive := fun rounds id => ∀ port, NeverLost (graph.trace carried (rounds + 1) ⟨id, port⟩))
    (fun rounds id hback port => ?_) rounds id hgone port
  refine trace_succ_failsWith (fun _ _ => not_false) hcarried fun edge hmem htarget input => ?_
  -- The walk goes on where the edge begins, a round earlier, with a step less.
  obtain ⟨earlier, rfl, hearlier⟩ := hback edge hmem (by rw [htarget])
  exact hearlier input

/-- A walk does not change when it may take more steps than there are nodes on its way. -/
theorem WellWired.trace_stable (h : graph.WellWired) (rounds : Nat) (id : String)
    (hgone : id ∉ peel graph.edges rounds (graph.nodes.map (·.id))) (port : String) (extra : Nat) :
    graph.trace carried (rounds + 1 + extra) ⟨id, port⟩ =
      graph.trace carried (rounds + 1) ⟨id, port⟩ := by
  refine h.walk_induction
    (motive := fun rounds id => ∀ port, graph.trace carried (rounds + 1 + extra) ⟨id, port⟩ =
      graph.trace carried (rounds + 1) ⟨id, port⟩)
    (fun rounds id hback port => ?_) rounds id hgone port
  rw [Nat.add_right_comm, trace, trace]
  split
  · rfl
  · split
    · rfl
    · rename_i edge hedge
      have hmem := List.mem_of_find?_eq_some hedge
      have htarget : edge.target = ⟨id, port⟩ := key_of_find? hedge
      obtain ⟨earlier, rfl, hearlier⟩ := hback edge hmem (by rw [htarget])
      refine bind_congr fun answer => ?_
      cases answer with
      | none => rfl
      | some input => exact hearlier input

/-- A walk that has found its answer finds the same one with more steps. -/
theorem trace_of_ok {steps : Nat} {claim : PortRef} {outer : String}
    (h : graph.trace carried steps claim = .ok outer) (extra : Nat) :
    graph.trace carried (steps + extra) claim = .ok outer := by
  induction steps generalizing claim with
  | zero => cases h
  | succ steps ih =>
    rw [Nat.add_right_comm, trace_succ_eq_ok]
    rcases trace_succ_eq_ok.1 h with hmapping | ⟨hnone, edge, inner, hedge, hinner, hrest⟩
    · exact .inl hmapping
    · exact .inr ⟨hnone, edge, inner, hedge, hinner, ih hrest⟩

/-- The bound of a walk suffices from every node. -/
theorem WellWired.trace_bound_stable (h : graph.WellWired) (claim : PortRef) (extra : Nat) :
    graph.trace carried (graph.traceBound + extra) claim =
      graph.trace carried graph.traceBound claim :=
  h.trace_stable graph.nodes.length claim.node (h.notMem_peel claim.node) claim.port extra

theorem WellWired.trace_bound_neverLost (h : graph.WellWired)
    (hcarried : ∀ edge ∈ graph.edges, NeverLost (carried edge.source)) (claim : PortRef) :
    NeverLost (graph.trace carried graph.traceBound claim) :=
  h.trace_neverLost hcarried graph.nodes.length claim.node (h.notMem_peel claim.node) claim.port

end Graph

/-! ## Whole trees -/

/-- Asking a node for its component meets at worst a reference. -/
theorem Node.component_failsWith {allowed : LoweringError → Prop} (node : Node)
    (h : ∀ variant, allowed (.here (.notDereferenced node.id variant))) :
    FailsWith allowed node.component := by
  rw [Node.component]
  split
  · exact FailsWith.ok _
  · exact FailsWith.fault (h _)

theorem Node.component_neverLost (node : Node) : NeverLost node.component :=
  node.component_failsWith fun _ => not_false

/-- Nodes fail to answer for an output where there is no node to ask, where that node has no
component, or where its component fails. -/
theorem Node.carriedAt_failsWith {allowed : LoweringError → Prop} {nodes : List Node}
    {ref : PortRef}
    (hunknown : (∀ node ∈ nodes, node.id ≠ ref.node) → allowed (.here (.unknownNode ref.node)))
    (hnodes : ∀ node ∈ nodes, FailsWith allowed node.component)
    (hchild : ∀ node ∈ nodes, ∀ child, node.component? = some child →
      FailsWith (fun error => allowed (error.within child.id)) (child.carried ref.port)) :
    FailsWith allowed (Node.carriedAt nodes ref) := by
  rw [Node.carriedAt_eq_find]
  split
  · rename_i node hfind
    have hnode := List.mem_of_find?_eq_some hfind
    cases hcomponent : node.component? with
    | none =>
      rw [Node.carried_of_reference _ hcomponent]
      exact FailsWith.fault (hnodes node hnode _ (Node.component_of_reference hcomponent))
    | some child =>
      rw [Node.carried_of_component _ hcomponent]
      exact FailsWith.inside (hchild node hnode child hcomponent)
  · rename_i hnone
    exact FailsWith.fault (hunknown (find?_key_eq_none.1 hnone))

/-- A node that is there answers without getting lost when the component at it does. -/
theorem Node.carriedAt_neverLost {nodes : List Node} {ref : PortRef}
    (hknown : ∃ node ∈ nodes, node.id = ref.node)
    (hchild : ∀ node ∈ nodes, ∀ child, node.component? = some child →
      NeverLost (child.carried ref.port)) :
    NeverLost (Node.carriedAt nodes ref) := by
  refine Node.carriedAt_failsWith (fun hnone => ?_) (fun node _ => node.component_neverLost) hchild
  obtain ⟨node, hnode, hid⟩ := hknown
  exact absurd hid (hnone node hnode)

namespace Component

/-- In a valid tree no component gets lost when it is asked which input backs an output. -/
theorem carried_neverLost (component : Component) (h : component.validate = .ok ())
    (port : String) : NeverLost (component.carried port) := by
  induction component using Component.induction generalizing port with
  | step component ih =>
    rcases component.brick_or_composite with ⟨brick, hbrick⟩ | hcomposite
    · rw [carried_of_brick port hbrick]
      exact FailsOnly.ok _
    · rw [carried_of_composite port hcomposite]
      have hwired := wellWired h
      -- The walks in this scope ask the children, and those are valid trees themselves.
      have hchildren : ∀ port, ∀ node ∈ component.wiring.nodes, ∀ child,
          node.component? = some child → NeverLost (child.carried port) := by
        intro port node hnode child hchild
        have hhas := hasChild_of_node hnode hchild
        exact ih child hhas ((validate_eq_ok.1 h).2 child hhas) port
      refine Graph.traceOutput_failsWith (fun mapping hmapping => ?_) ?_ port
      · exact Node.carriedAt_neverLost (hwired.known_output hmapping) (hchildren _)
      · refine hwired.trace_bound_neverLost fun edge hedge => ?_
        exact Node.carriedAt_neverLost (hwired.known_source hedge) (hchildren _)

/-- In a valid tree a node that is there is asked without getting lost. -/
theorem carriedAt_neverLost {component : Component} (h : component.validate = .ok ())
    {ref : PortRef} (hknown : ∃ node ∈ component.wiring.nodes, node.id = ref.node) :
    NeverLost (Node.carriedAt component.wiring.nodes ref) := by
  refine Node.carriedAt_neverLost hknown fun node hnode child hchild => ?_
  have hhas := hasChild_of_node hnode hchild
  exact child.carried_neverLost ((validate_eq_ok.1 h).2 child hhas) ref.port

/-- In a valid tree every claim comes to an end. -/
theorem traceInput_neverLost {component : Component} (h : component.validate = .ok ())
    (claim : PortRef) : NeverLost (component.wiring.traceInput claim) :=
  (wellWired h).trace_bound_neverLost
    (fun _ hedge => carriedAt_neverLost h ((wellWired h).known_source hedge)) claim

end Component

end Pipeline
