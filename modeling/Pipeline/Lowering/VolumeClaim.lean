/-
Volume claims: which volume an input of a node stands for.

A claim is an input of a node that needs a volume. A mapping from an input of the
composite answers it. Otherwise it follows the edge into the input to the node at
the other end and asks that node which of its own inputs backs the output: a
brick answers by a result that is a volume, a composite through its output
mappings. The answer is a claim on that node, and the walk goes on from there.

Two functions ask each other. `trace` walks along edges and counts its steps, one
more than there are nodes being enough where edges do not lead in a circle;
`Component.carried` follows the tree inwards. Maps and conditionals take part as
graphs without edges.
-/
import Pipeline.Lowering.Scope

set_option autoImplicit false

namespace Pipeline

/-! ## Composites as graphs -/

/-- The nodes and connections of a map. -/
def MapBlock.wiring (map : MapBlock) : Graph :=
  ⟨[map.node], [], map.inputMappings, map.outputMappings⟩

/-- The nodes and connections of a conditional. -/
def Conditional.wiring (conditional : Conditional) : Graph :=
  ⟨conditional.branches, [], conditional.inputMappings, conditional.outputMappings⟩

/-! ## Walking along edges -/

namespace Graph

/-- The input of the composite that a claim leads to within so many steps, where `carried` tells
which input of a node backs an output of it. -/
def trace (graph : Graph) (carried : PortRef → Lowered (Option String)) :
    Nat → PortRef → Lowered String
  | 0, claim => fault (.claimCycle claim.node claim.port graph.nodes.length)
  | steps + 1, claim =>
    -- A mapping answers before any edge does.
    match graph.inputMappings.find? (·.target = claim) with
    | some mapping => .ok mapping.source
    | none =>
      match graph.edges.find? (·.target = claim) with
      | none => fault (.unresolvedClaim claim.node claim.port)
      | some edge => do
        match ← carried edge.source with
        | none => fault (.unresolvedClaim edge.source.node edge.source.port)
        | some input => graph.trace carried steps ⟨edge.source.node, input⟩

/-- The number of steps that a walk may take. -/
def traceBound (graph : Graph) : Nat := graph.nodes.length + 1

/-- The input of the composite that backs an output of it, if any. -/
def traceOutput (graph : Graph) (carried : PortRef → Lowered (Option String)) (port : String) :
    Lowered (Option String) :=
  match graph.outputMappings.find? (·.target = port) with
  | none => .ok none
  | some mapping => do
    match ← carried mapping.source with
    | none => return none
    | some inner => return some (← graph.trace carried graph.traceBound ⟨mapping.source.node, inner⟩)

end Graph

/-! ## Following the tree -/

mutual

/-- The input of a component that backs an output of it, if any. -/
def Component.carried : Component → String → Lowered (Option String)
  | ⟨_, _, _, _, _, _, _, _, .brick block⟩, port =>
    match (block.result? port).map BrickResult.source with
    | some (.volume input) => .ok (some input)
    | _ => .ok none
  | ⟨_, _, _, _, _, _, _, _, .any⟩, _ => .ok none
  | ⟨_, _, _, _, _, _, _, _, .graph ⟨nodes, edges, inputMappings, outputMappings⟩⟩, port =>
    Graph.traceOutput ⟨nodes, edges, inputMappings, outputMappings⟩ (Node.carriedAt nodes) port
  | ⟨_, _, _, _, _, _, _, _, .map ⟨node, inputMappings, outputMappings⟩⟩, port =>
    Graph.traceOutput ⟨[node], [], inputMappings, outputMappings⟩
      (fun ref =>
        if node.id = ref.node then node.carried ref.port else fault (.unknownNode ref.node))
      port
  | ⟨_, _, _, _, _, _, _, _, .conditional ⟨nodeTrue, none, _, inputMappings, outputMappings⟩⟩,
      port =>
    Graph.traceOutput ⟨[nodeTrue], [], inputMappings, outputMappings⟩
      (fun ref =>
        if nodeTrue.id = ref.node then nodeTrue.carried ref.port
        else fault (.unknownNode ref.node))
      port
  | ⟨_, _, _, _, _, _, _, _,
      .conditional ⟨nodeTrue, some nodeFalse, _, inputMappings, outputMappings⟩⟩, port =>
    Graph.traceOutput ⟨[nodeTrue, nodeFalse], [], inputMappings, outputMappings⟩
      (fun ref =>
        if nodeTrue.id = ref.node then nodeTrue.carried ref.port
        else if nodeFalse.id = ref.node then nodeFalse.carried ref.port
        else fault (.unknownNode ref.node))
      port
termination_by structural component => component

/-- The input of the component at a node that backs an output of it. -/
def Node.carried : Node → String → Lowered (Option String)
  | ⟨_, .inline component⟩, port => inside component.id (component.carried port)
  | ⟨id, .latest stored⟩, _ => fault (.notDereferenced id (NodeRef.latest stored).variant)
  | ⟨id, .pinned stored version⟩, _ =>
    fault (.notDereferenced id (NodeRef.pinned stored version).variant)
termination_by structural node => node

/-- The input that backs an output of the first node of an identifier. -/
def Node.carriedAt : List Node → PortRef → Lowered (Option String)
  | [], ref => fault (.unknownNode ref.node)
  | node :: nodes, ref =>
    if node.id = ref.node then node.carried ref.port else Node.carriedAt nodes ref
termination_by structural nodes => nodes

end

/-! ## Scopes of children -/

namespace Graph

/-- The input of the composite that a claim leads to. -/
def traceInput (graph : Graph) (claim : PortRef) : Lowered String :=
  graph.trace (Node.carriedAt graph.nodes) graph.traceBound claim

/-- The volumes of a child, each found by the claim on its input. The claims are those of the
claimant, which is not the child itself for the second branch of a conditional: that one shares the
bindings of the first. -/
def narrowVolumes (graph : Graph) (claimant : String) (child : Component)
    (volumes : VolumeScope) : Lowered VolumeScope := do
  let bindings ← (child.inputs.filter (·.type = .volume)).mapM fun port => do
    let outer ← graph.traceInput ⟨claimant, port.name⟩
    match volumes.get? outer with
    | some volume => return (port.name, volume)
    | none => fault (.unboundVolume outer)
  return KeyMap.ofList bindings

end Graph

end Pipeline
