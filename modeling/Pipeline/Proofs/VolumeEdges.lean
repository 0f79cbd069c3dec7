/-
Volume edges: what stands at both ends of an edge mounts one volume.

The two ends are lowered apart from each other, each under scopes of its own. They
agree because the claim behind the consumer goes on from the producer: past the
edge it is the claim of the producer itself on the input that backs the output
(`Graph.Answers.traceInput_source`), and both end at one input of the graph.

The producer may be a composite that only hands a volume on. The output mapping
that names the input behind its output also names the child to go on with, so the
volume is followed inwards, from an output of a visit to an output of the next
(`Outlet.LeadsTo`), until a brick is reached that puts it out as a result. One step
finds the same volume as long as the input is one that the child declares as a
volume (`Outlet.LeadsTo.bound`); a path of such steps ends at every brick that does
so (`Outlet.exists_end`).
-/
import Pipeline.Proofs.CallGraph
import Pipeline.Proofs.ClaimMeaning
import Pipeline.Proofs.Handover

set_option autoImplicit false

namespace Pipeline

/-! ## Edges that answer -/

/-- A claim on the target of the edge is answered by the edge: no mapping has the target, and no
edge before it. -/
structure Graph.Answers (graph : Graph) (edge : Edge) : Prop where
  unmapped : ∀ mapping ∈ graph.inputMappings, mapping.target ≠ edge.target
  first : graph.edges.find? (·.target = edge.target) = some edge

namespace Graph

variable {graph : Graph} {edge : Edge} {claim : PortRef} {outer : String}

/-- A claim that is answered has a mapping or an edge to begin with. -/
theorem exists_source_of_traceInput (h : graph.traceInput claim = .ok outer) :
    (∃ mapping ∈ graph.inputMappings, mapping.target = claim) ∨
      ∃ edge ∈ graph.edges, edge.target = claim := by
  rcases trace_succ_eq_ok.1 h with ⟨mapping, hmapping, -⟩ | ⟨-, edge, _, hedge, -⟩
  · exact .inl ⟨mapping, List.mem_of_find?_eq_some hmapping, key_of_find? hmapping⟩
  · exact .inr ⟨edge, List.mem_of_find?_eq_some hedge, key_of_find? hedge⟩

/-- Past an edge that answers, the claim is one of the node where the edge begins, on the input
that backs the output there. -/
theorem Answers.traceInput_source (hanswers : graph.Answers edge)
    (h : graph.traceInput edge.target = .ok outer) :
    ∃ input, Node.carriedAt graph.nodes edge.source = .ok (some input) ∧
      graph.traceInput ⟨edge.source.node, input⟩ = .ok outer := by
  have hunmapped : graph.inputMappings.find? (·.target = edge.target) = none :=
    find?_key_eq_none.2 hanswers.unmapped
  rcases trace_succ_eq_ok.1 h with ⟨mapping, hmapping, -⟩ | ⟨-, first, input, hfirst, hinput, hrest⟩
  · rw [hunmapped] at hmapping
    cases hmapping
  · obtain rfl := Option.some.inj (hanswers.first.symm.trans hfirst)
    -- The rest of the walk has one step less than a walk of its own, which finds the same.
    exact ⟨input, hinput, trace_of_ok hrest 1⟩

end Graph

/-! ## The visit at a node -/

namespace Visit

variable {visit next : Visit} {node : Node} {settings : Settings}

/-- One visit leads to another one at the node. -/
def LeadsAt (visit : Visit) (node : Node) (next : Visit) : Prop :=
  ∃ claim ∈ visit.component.claimants, claim.2 = node ∧ visit.HandsTo claim next

theorem LeadsAt.leads (h : visit.LeadsAt node next) : visit.Leads next := by
  obtain ⟨claim, hclaim, -, hnext⟩ := h
  exact ⟨claim, hclaim, hnext⟩

theorem LeadsAt.component? (h : visit.LeadsAt node next) :
    node.component? = some next.component := by
  obtain ⟨claim, -, rfl, hnext⟩ := h
  exact hnext.1

/-- When a tree is lowered, there is a next visit at each of the nodes. -/
theorem exists_leadsAt {templates : List Manifest.Template}
    (h : visit.allTemplates settings = .ok templates)
    (hnode : node ∈ visit.component.wiring.nodes) :
    ∃ next, visit.LeadsAt node next := by
  rw [← Component.children_eq_nodes, Component.children_eq_map_claimants] at hnode
  obtain ⟨claim, hclaim, rfl⟩ := List.mem_map.1 hnode
  obtain ⟨_, _, -, -, -, hclaims⟩ := allTemplates_eq_ok h
  obtain ⟨next, hnext, -⟩ := hclaims claim hclaim
  exact ⟨next, claim, hclaim, rfl, hnext⟩

/-- A node whose claim is answered is handed its own bindings. -/
theorem claimant_eq {template : Manifest.Template}
    (htemplate : visit.template settings = .ok template) {claim : String × Node}
    (hclaim : claim ∈ visit.component.claimants) {inner outer : String}
    (houter : visit.component.wiring.traceInput ⟨claim.2.id, inner⟩ = .ok outer) :
    claim.1 = claim.2.id := by
  obtain ⟨component, scopes⟩ := visit
  rw [Visit.template, Component.template] at htemplate
  rw [Component.claimants] at hclaim
  rw [Component.wiring] at houter
  cases himplementation : component.implementation with
  | brick brick =>
    rw [himplementation] at hclaim
    cases hclaim
  | any =>
    rw [himplementation] at hclaim
    cases hclaim
  | graph block =>
    rw [himplementation] at hclaim
    obtain ⟨node, -, rfl⟩ := List.mem_map.1 hclaim
    rfl
  | map block =>
    rw [himplementation] at hclaim
    obtain rfl := List.mem_singleton.1 hclaim
    rfl
  | conditional block =>
    rw [himplementation] at hclaim houter htemplate
    obtain ⟨node, -, rfl⟩ := List.mem_map.1 hclaim
    -- There are no edges, and all mappings lead into the first branch.
    obtain ⟨_, _, _, _, _, hcheck, -⟩ := Conditional.template_eq_ok.1 htemplate
    rcases Graph.exists_source_of_traceInput houter with
      ⟨mapping, hmapping, htarget⟩ | ⟨edge, hedge, -⟩
    · have hnode := (Conditional.checkMappings_eq_ok.1 hcheck).1 mapping hmapping
      rw [htarget] at hnode
      exact hnode.symm
    · cases hedge

/-- The volume of a claim on an input of a node is found there, if the input is declared as a
volume. -/
theorem LeadsAt.exists_volume {template : Manifest.Template}
    (htemplate : visit.template settings = .ok template) (h : visit.LeadsAt node next)
    {inner outer : String}
    (houter : visit.component.wiring.traceInput ⟨node.id, inner⟩ = .ok outer)
    (hinner : ⟨inner, .volume⟩ ∈ next.component.inputs) :
    ∃ volume, visit.scopes.volumes.get? outer = some volume ∧
      next.scopes.volumes.get? inner = some volume := by
  obtain ⟨claim, hclaim, rfl, hnext⟩ := h
  have hclaimant := claimant_eq htemplate hclaim houter
  obtain ⟨outer', volume, houter', hvolume, hbound⟩ := hnext.exists_volume hinner
  rw [hclaimant] at houter'
  obtain rfl := Except.ok.inj (houter.symm.trans houter')
  exact ⟨volume, hvolume, hbound⟩

end Visit

/-! ## Following an output inwards -/

/-- An output of a component that is visited. -/
structure Outlet where
  visit : Visit
  port : String

namespace Outlet

variable {outlet next last : Outlet} {input volume : String} {settings : Settings}

/-- The output is backed by the input. -/
def Bridges (outlet : Outlet) (input : String) : Prop :=
  outlet.visit.component.carried outlet.port = .ok (some input)

/-- The input that backs the output, if there is one, is declared as a volume. -/
def Declared (outlet : Outlet) : Prop :=
  ∀ input, outlet.Bridges input → ⟨input, .volume⟩ ∈ outlet.visit.component.inputs

/-- The component finds the volume at the input that backs the output. -/
def Holds (outlet : Outlet) (volume : String) : Prop :=
  ∃ input, outlet.Bridges input ∧ outlet.visit.scopes.volumes.get? input = some volume

/-- An output of a composite leads to the output of a child that is mapped to it. -/
def LeadsTo (outlet next : Outlet) : Prop :=
  ∃ mapping node,
    outlet.visit.component.wiring.outputMappings.find? (·.target = outlet.port) = some mapping ∧
    outlet.visit.component.wiring.node? mapping.source.node = some node ∧
    outlet.visit.LeadsAt node next.visit ∧ next.port = mapping.source.port

/-- Any number of output mappings, followed inwards. -/
def Follows (outlet next : Outlet) : Prop := Relation.ReflTransGen LeadsTo outlet next

theorem LeadsTo.leads (h : outlet.LeadsTo next) : outlet.visit.Leads next.visit := by
  obtain ⟨_, _, -, -, hleads, -⟩ := h
  exact hleads.leads

theorem Follows.reaches (h : outlet.Follows next) : outlet.visit.Reaches next.visit := by
  induction h with
  | refl => exact .refl
  | tail _ hleads ih => exact ih.tail hleads.leads

/-- A composite has an input behind an output by an output mapping from a child that has one. -/
theorem Bridges.exists_mapping (h : outlet.Bridges input)
    (hcomposite : outlet.visit.component.IsComposite) :
    ∃ mapping node child inner,
      outlet.visit.component.wiring.outputMappings.find? (·.target = outlet.port) = some mapping ∧
      outlet.visit.component.wiring.node? mapping.source.node = some node ∧
      node.component? = some child ∧ child.carried mapping.source.port = .ok (some inner) ∧
      outlet.visit.component.wiring.traceInput ⟨mapping.source.node, inner⟩ = .ok input := by
  rw [Bridges, Component.carried_of_composite _ hcomposite] at h
  obtain ⟨mapping, inner, hmapping, hinner, htrace⟩ := Graph.traceOutput_eq_ok.1 h
  obtain ⟨node, child, hnode, hchild, hcarried⟩ := Node.carriedAt_eq_ok.1 hinner
  exact ⟨mapping, node, child, inner, hmapping, hnode, hchild, hcarried, htrace⟩

theorem LeadsTo.isComposite (h : outlet.LeadsTo next) : outlet.visit.component.IsComposite := by
  intro brick hbrick
  obtain ⟨mapping, _, hmapping, -⟩ := h
  rw [Component.wiring, hbrick] at hmapping
  cases hmapping

/-- What an output with a volume leads to has the same volume, as long as its input is declared. -/
theorem LeadsTo.holds {template : Manifest.Template}
    (htemplate : outlet.visit.template settings = .ok template) (h : outlet.LeadsTo next)
    (hholds : outlet.Holds volume) (hdeclared : next.Declared) : next.Holds volume := by
  obtain ⟨input, hbridges, hvolume⟩ := hholds
  obtain ⟨mapping, node, child, inner, hmapping, hnode, hchild, hinner, htrace⟩ :=
    hbridges.exists_mapping h.isComposite
  -- There is but one way to go on.
  obtain ⟨mapping', node', hmapping', hnode', hleads, hport⟩ := h
  obtain rfl := Option.some.inj (hmapping.symm.trans hmapping')
  obtain rfl := Option.some.inj (hnode.symm.trans hnode')
  obtain rfl : child = next.visit.component := Option.some.inj (hchild.symm.trans hleads.component?)
  have hnext : next.Bridges inner := by
    rw [Bridges, hport]
    exact hinner
  have hid : node.id = mapping.source.node := key_of_find? hnode
  rw [← hid] at htrace
  obtain ⟨volume', hvolume', hbound⟩ :=
    hleads.exists_volume htemplate htrace (hdeclared inner hnext)
  obtain rfl := Option.some.inj (hvolume'.symm.trans hvolume)
  exact ⟨inner, hnext, hbound⟩

/-- Wherever an output with a volume leads, there is the same volume. -/
theorem Follows.holds {templates : List Manifest.Template}
    (hall : outlet.visit.allTemplates settings = .ok templates) (h : outlet.Follows last)
    (hholds : outlet.Holds volume)
    (hdeclared : ∀ between, outlet.Follows between → between.Declared) : last.Holds volume := by
  induction h with
  | refl => exact hholds
  | @tail between next hfollows hleads ih =>
    obtain ⟨template, htemplate⟩ := (Follows.reaches hfollows).exists_template hall
    exact hleads.holds htemplate ih (hdeclared next (hfollows.tail hleads))

theorem bridges_of_brick {brick : Brick}
    (h : outlet.visit.component.implementation = .brick brick) :
    outlet.Bridges input ↔ brick.backing? outlet.port = some input := by
  rw [Bridges, Component.carried_of_brick _ h, Except.ok.injEq]

/-- Following an output that is backed leads to a brick that puts out the volume of a result. -/
theorem exists_end {templates : List Manifest.Template} (outlet : Outlet)
    (hall : outlet.visit.allTemplates settings = .ok templates) (h : outlet.Bridges input) :
    ∃ last brick result, outlet.Follows last ∧
      last.visit.component.implementation = .brick brick ∧
      brick.backing? last.port = some result := by
  obtain ⟨⟨component, scopes⟩, port⟩ := outlet
  induction component using Component.induction generalizing scopes port input templates with
  | step component ih =>
    rcases component.brick_or_composite with ⟨brick, hbrick⟩ | hcomposite
    · exact ⟨_, brick, input, .refl, hbrick, (bridges_of_brick hbrick).1 h⟩
    · obtain ⟨mapping, node, child, inner, hmapping, hnode, hchild, hinner, -⟩ :=
        h.exists_mapping hcomposite
      -- The child at the mapping was lowered with the composite, and goes on in the same way.
      obtain ⟨next, hleads⟩ := Visit.exists_leadsAt hall (List.mem_of_find?_eq_some hnode)
      obtain ⟨below, hbelow⟩ := hleads.leads.exists_allTemplates hall
      obtain rfl : child = next.component := Option.some.inj (hchild.symm.trans hleads.component?)
      obtain ⟨last, brick, result, hfollows, hend⟩ :=
        ih next.component hleads.leads.hasChild mapping.source.port next.scopes hbelow hinner
      have hstep : LeadsTo ⟨⟨component, scopes⟩, port⟩ ⟨next, mapping.source.port⟩ :=
        ⟨mapping, node, hmapping, hnode, hleads, rfl⟩
      exact ⟨last, brick, result, .head hstep hfollows, hend⟩

end Outlet

/-! ## Both ends of an edge -/

/-- Where an edge answers the claim on a volume input, both ends are visited with the same volume,
the producer at the input behind its output. -/
theorem Visit.exists_ends {visit : Visit} {settings : Settings} {all : List Manifest.Template}
    (hall : visit.allTemplates settings = .ok all) {graph : Graph}
    (hgraph : visit.component.implementation = .graph graph) {edge : Edge}
    (hanswers : graph.Answers edge) {consumer : Node} (hconsumer : consumer ∈ graph.nodes)
    (hid : consumer.id = edge.target.node) {child : Component}
    (hchild : consumer.component? = some child)
    (hinput : ⟨edge.target.port, .volume⟩ ∈ child.inputs) :
    ∃ producer ∈ graph.nodes, producer.id = edge.source.node ∧
      ∃ source target : Visit, visit.LeadsAt producer source ∧ visit.LeadsAt consumer target ∧
      ∃ input volume, source.component.carried edge.source.port = .ok (some input) ∧
        target.scopes.volumes.get? edge.target.port = some volume ∧
        (⟨input, .volume⟩ ∈ source.component.inputs →
          source.scopes.volumes.get? input = some volume) := by
  have hwiring : visit.component.wiring = graph := by
    rw [Component.wiring, hgraph]
    rfl
  obtain ⟨template, _, htemplate, -⟩ := allTemplates_eq_ok hall
  -- The consumer is lowered, so its claim has an answer.
  rw [← hwiring] at hconsumer
  obtain ⟨target, htarget⟩ := exists_leadsAt hall hconsumer
  obtain rfl : child = target.component := Option.some.inj (hchild.symm.trans htarget.component?)
  obtain ⟨claim, hclaim, hnode, hnext⟩ := htarget
  have hclaimant : claim.1 = edge.target.node := by
    rw [Component.claimants, hgraph] at hclaim
    obtain ⟨node, -, rfl⟩ := List.mem_map.1 hclaim
    rw [← hid, ← hnode]
  obtain ⟨outer, volume, houter, hvolume, hbound⟩ := hnext.exists_volume hinput
  rw [hwiring, hclaimant] at houter
  -- Past the edge it is a claim of the producer, which has the same answer.
  obtain ⟨input, hcarried, hsource⟩ := hanswers.traceInput_source houter
  obtain ⟨producer, component, hproducer, hcomponent, hcarries⟩ := Node.carriedAt_eq_ok.1 hcarried
  have hmem : producer ∈ graph.nodes := List.mem_of_find?_eq_some hproducer
  have hproducerId : producer.id = edge.source.node := key_of_find? hproducer
  have hscope : producer ∈ visit.component.wiring.nodes := by rwa [hwiring]
  obtain ⟨source, hleads⟩ := exists_leadsAt hall hscope
  obtain rfl : component = source.component :=
    Option.some.inj (hcomponent.symm.trans hleads.component?)
  refine ⟨producer, hmem, hproducerId, source, target, hleads, ⟨claim, hclaim, hnode, hnext⟩, input,
    volume, hcarries, hbound, fun hdeclared => ?_⟩
  rw [← hwiring, ← hproducerId] at hsource
  obtain ⟨volume', hvolume', hfound⟩ := hleads.exists_volume htemplate hsource hdeclared
  obtain rfl := Option.some.inj (hvolume'.symm.trans hvolume)
  exact hfound

namespace Component

/-- **Both ends of a volume edge mount one volume.** Wherever a graph stands in a tree that is
lowered, and an edge of it answers the claim on a volume input of the consumer, the output of the
producer is backed by an input, and the consumer finds at its input the volume that the producer
finds there, if that input is declared as a volume. Followed inwards through output mappings, the
output leads to a brick that puts out the volume of a result; and if the inputs behind the outputs
on the way are declared as volumes, the brick finds the same volume at the input of its result. -/
theorem edge_shares_volume {root : Component} {settings : Settings} {scopes : Scopes}
    {templates : List Manifest.Template} (hok : root.templates settings scopes = .ok templates)
    {visit : Visit} (hreaches : Visit.Reaches ⟨root, scopes⟩ visit) {graph : Graph}
    (hgraph : visit.component.implementation = .graph graph) {edge : Edge}
    (hanswers : graph.Answers edge) {consumer : Node} (hconsumer : consumer ∈ graph.nodes)
    (hid : consumer.id = edge.target.node) {child : Component}
    (hchild : consumer.component? = some child)
    (hinput : ⟨edge.target.port, .volume⟩ ∈ child.inputs) :
    ∃ producer ∈ graph.nodes, producer.id = edge.source.node ∧
      ∃ source target : Visit, visit.LeadsAt producer source ∧ visit.LeadsAt consumer target ∧
      ∃ input volume, source.component.carried edge.source.port = .ok (some input) ∧
        target.scopes.volumes.get? edge.target.port = some volume ∧
        (⟨input, .volume⟩ ∈ source.component.inputs →
          source.scopes.volumes.get? input = some volume) ∧
        ∃ last brick result, Outlet.Follows ⟨source, edge.source.port⟩ last ∧
          last.visit.component.implementation = .brick brick ∧
          brick.backing? last.port = some result ∧
          ((∀ between, Outlet.Follows ⟨source, edge.source.port⟩ between → between.Declared) →
            last.visit.scopes.volumes.get? result = some volume) := by
  obtain ⟨repeats, hrepeats, -⟩ := templates_eq_ok hok
  obtain ⟨all, hall⟩ := hreaches.exists_allTemplates hrepeats
  obtain ⟨producer, hproducer, hproducerId, source, target, hsource, htarget, input, volume,
    hcarries, hbound, hshared⟩ := Visit.exists_ends hall hgraph hanswers hconsumer hid hchild hinput
  obtain ⟨below, hbelow⟩ := hsource.leads.exists_allTemplates hall
  obtain ⟨last, brick, result, hfollows, hbrick, hresult⟩ :=
    Outlet.exists_end ⟨source, edge.source.port⟩ hbelow hcarries
  refine ⟨producer, hproducer, hproducerId, source, target, hsource, htarget, input, volume,
    hcarries, hbound, hshared, last, brick, result, hfollows, hbrick, hresult, fun hdeclared => ?_⟩
  -- The producer holds the volume at its output, so whatever the output leads to does.
  have hstart : Outlet.Holds ⟨source, edge.source.port⟩ volume :=
    ⟨input, hcarries, hshared (hdeclared _ .refl input hcarries)⟩
  obtain ⟨found, hbridges, hfound⟩ := hfollows.holds hbelow hstart hdeclared
  obtain rfl := Option.some.inj (hresult.symm.trans ((Outlet.bridges_of_brick hbrick).1 hbridges))
  exact hfound

/-! ## A chain behind an edge -/

/-- The volume of the one input is bound. -/
def nestedChainScopes : Scopes := ⟨.empty, KeyMap.ofList [("shared", "v")]⟩

/-- The output of the chain leads to that of its third brick. -/
theorem follows_volumeChain {source : Visit} (hsource : source.component = volumeChain)
    {between : Outlet} (h : Outlet.Follows ⟨source, "volume"⟩ between) :
    between.visit.component = volumeChain ∧ between.port = "volume" ∨
      between.visit.component = volumeBrick 3 ∧ between.port = "out" := by
  induction h with
  | refl => exact .inl ⟨hsource, rfl⟩
  | tail _ hleads ih =>
    rcases ih with ⟨hcomponent, hport⟩ | ⟨hcomponent, -⟩
    · obtain ⟨mapping, node, hmapping, hnode, hnext, hnextPort⟩ := hleads
      rw [hcomponent, hport] at hmapping
      obtain rfl : _ = mapping := Option.some.inj hmapping
      rw [hcomponent] at hnode
      obtain rfl : _ = node := Option.some.inj hnode
      exact .inr ⟨(Option.some.inj hnext.component?).symm, hnextPort⟩
    -- A brick leads nowhere.
    · exact absurd (by rw [hcomponent]; rfl) (hleads.isComposite _)

/-- All volumes on that way are declared. -/
theorem declared_of_follows_volumeChain {source : Visit} (hsource : source.component = volumeChain)
    {between : Outlet} (h : Outlet.Follows ⟨source, "volume"⟩ between) : between.Declared := by
  intro input hbridges
  rcases follows_volumeChain hsource h with ⟨hcomponent, hport⟩ | ⟨hcomponent, hport⟩
  · rw [Outlet.Bridges, hcomponent, hport] at hbridges
    have hcarried : volumeChain.carried "volume" = .ok (some "volume") := by decide
    obtain rfl := Option.some.inj (Except.ok.inj (hcarried.symm.trans hbridges))
    rw [hcomponent]
    decide
  · rw [Outlet.Bridges, hcomponent, hport] at hbridges
    have hcarried : (volumeBrick 3).carried "out" = .ok (some "in") := by decide
    obtain rfl := Option.some.inj (Except.ok.inj (hcarried.symm.trans hbridges))
    rw [hcomponent]
    decide

/-- The third brick of the chain and the brick behind the chain find the same volume. -/
theorem nestedChain_shares_volume :
    ∃ source target last : Visit,
      Visit.LeadsAt ⟨nestedChain, nestedChainScopes⟩ ⟨"chain", .inline volumeChain⟩ source ∧
      Visit.LeadsAt ⟨nestedChain, nestedChainScopes⟩ ⟨"last", .inline (volumeBrick 1)⟩ target ∧
      source.Reaches last ∧ last.component = volumeBrick 3 ∧
      ∃ volume, target.scopes.volumes.get? "in" = some volume ∧
        last.scopes.volumes.get? "in" = some volume := by
  have hok : ∃ templates, nestedChain.templates .default nestedChainScopes = .ok templates ∧
      templates.length = 5 := by
    rw [← exists_ok_iff]
    decide
  obtain ⟨templates, hok, -⟩ := hok
  have hanswers : Graph.Answers nestedChain.wiring ⟨⟨"chain", "volume"⟩, ⟨"last", "in"⟩⟩ :=
    ⟨by decide, rfl⟩
  have hconsumer : (⟨"last", .inline (volumeBrick 1)⟩ : Node) ∈ nestedChain.wiring.nodes :=
    .tail _ (.head _)
  obtain ⟨producer, hproducer, hid, source, target, hsource, htarget, -, volume, -, hbound, -,
    last, brick, result, hfollows, hbrick, hresult, hend⟩ :=
    edge_shares_volume hok .refl rfl hanswers hconsumer rfl rfl (by decide)
  obtain rfl : producer = ⟨"chain", .inline volumeChain⟩ := by
    rcases List.mem_pair.1 hproducer with rfl | rfl
    · rfl
    · exact absurd hid (by decide)
  have hchain : source.component = volumeChain := (Option.some.inj hsource.component?).symm
  have hbound' := hend fun between => declared_of_follows_volumeChain hchain
  refine ⟨source, target, last.visit, hsource, htarget, hfollows.reaches, ?_⟩
  -- The chain itself is no brick, so the way ends at its third one.
  rcases follows_volumeChain hchain hfollows with ⟨hcomponent, -⟩ | ⟨hcomponent, hport⟩
  · rw [hcomponent] at hbrick
    cases hbrick
  · rw [hcomponent] at hbrick
    obtain rfl : _ = brick := Implementation.brick.inj hbrick
    rw [hport] at hresult
    obtain rfl : "in" = result := Option.some.inj hresult
    exact ⟨hcomponent, volume, hbound, hbound'⟩

end Component

end Pipeline
