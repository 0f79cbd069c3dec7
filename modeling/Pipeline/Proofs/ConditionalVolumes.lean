/-
Volumes through a conditional.

A conditional is asked which of its inputs backs an output as if it were a graph
without edges: the first mapping to the output is followed to its branch, and the
claim on what the branch carries there is answered by an input mapping to that
branch. But only the first branch has input mappings; the second one shares them
when it runs, and not when it is asked. So the answer is that of the first branch
where one of its mappings comes first (`Conditional.IsChecked.carried_of_true`),
and is lost where one of the second branch does (`carried_of_false`).

Two things follow. The answer depends on the order of the output mappings as soon
as both branches have one to the same output. And where there is an answer it is
right for the first branch alone: no check compares what the branches do with
their volumes, and the second branch has no part in the answer.
-/
import Pipeline.Proofs.ClaimWalk
import Pipeline.Proofs.FirstViolation
import Pipeline.Proofs.TemplateParts

set_option autoImplicit false

namespace Pipeline

/-! ## Conditionals that pass their checks -/

/-- A component with another conditional for its implementation. -/
def Component.holding (component : Component) (conditional : Conditional) : Component :=
  { component with implementation := .conditional conditional }

namespace Conditional

/-- The conditional is what a valid component is made of, its mappings go through the first branch,
and its branches are inline and have the same ports. -/
structure IsChecked (conditional : Conditional) (component whenTrue : Component)
    (whenFalse : Option Component) : Prop where
  implementation : component.implementation = .conditional conditional
  valid : component.validate = .ok ()
  mappings : conditional.checkMappings = .ok ()
  componentTrue : conditional.nodeTrue.component? = some whenTrue
  componentFalse : conditional.componentFalse whenTrue = .ok whenFalse

/-- A conditional with other output mappings. -/
def withOutputs (conditional : Conditional) (mappings : List OutputMapping) : Conditional :=
  { conditional with outputMappings := mappings }

/-- A conditional whose outputs are mapped from the first branch only. -/
def throughTrue (conditional : Conditional) : Conditional :=
  conditional.withOutputs conditional.outputMappingsTrue

/-- A conditional with another second branch. -/
def withFalse (conditional : Conditional) (node : Node) : Conditional :=
  { conditional with nodeFalse := some node }

theorem mem_outputMappingsTrue {conditional : Conditional} {mapping : OutputMapping} :
    mapping ∈ conditional.outputMappingsTrue ↔
      mapping ∈ conditional.outputMappings ∧ mapping.source.node = conditional.nodeTrue.id := by
  rw [outputMappingsTrue, List.mem_filter, decide_eq_true_eq]

end Conditional

namespace Component

variable {component : Component} {conditional other : Conditional}

/-- A valid conditional stays valid when its mappings and its branches are exchanged for others that
fit in. -/
theorem validate_holding (himplementation : component.implementation = .conditional conditional)
    (hvalid : component.validate = .ok ())
    (hconnected : (Implementation.conditional other).IsConnected)
    (hchildren : ∀ node ∈ other.branches, node ∉ conditional.branches →
      ∀ child, node.component? = some child → child.validate = .ok ()) :
    (component.holding other).validate = .ok () := by
  obtain ⟨hnil, hinputs, houtputs, -⟩ := validSelf hvalid
  have hself : (component.holding other).validateSelf = .ok () :=
    validateSelf_eq_ok.2
      ⟨hnil, hinputs, houtputs, Implementation.validateStructure_eq_ok.2 hconnected⟩
  refine validate_eq_ok.2 ⟨hself, ?_⟩
  rintro child ⟨node, hnode, hchild⟩
  by_cases hold : node ∈ conditional.branches
  · refine (validate_eq_ok.1 hvalid).2 child ⟨node, ?_, hchild⟩
    rwa [children, himplementation]
  · exact hchildren node hnode hold child hchild

end Component

namespace Conditional.IsChecked

variable {conditional : Conditional} {component whenTrue : Component}
  {whenFalse : Option Component} {mappings : List OutputMapping} {port : String}

theorem isComposite (h : conditional.IsChecked component whenTrue whenFalse) :
    component.IsComposite := by
  intro brick hbrick
  rw [h.implementation] at hbrick
  cases hbrick

theorem wiring (h : conditional.IsChecked component whenTrue whenFalse) :
    component.wiring = conditional.wiring :=
  Component.wiring_eq h.implementation

/-- The mappings end at the branches. -/
theorem isConnected (h : conditional.IsChecked component whenTrue whenFalse) :
    (Implementation.conditional conditional).IsConnected := by
  have hstructure := (Component.validSelf h.valid).2.2.2
  rw [h.implementation] at hstructure
  exact Implementation.validateStructure_eq_ok.1 hstructure

/-- No input is mapped to any node but the first branch. -/
theorem target_node (h : conditional.IsChecked component whenTrue whenFalse)
    {mapping : InputMapping} (hmapping : mapping ∈ conditional.inputMappings) :
    mapping.target.node = conditional.nodeTrue.id :=
  (checkMappings_eq_ok.1 h.mappings).1 mapping hmapping

/-- The output mappings may be any of those there are, as long as none of the first branch is
missing. -/
theorem withOutputs (h : conditional.IsChecked component whenTrue whenFalse)
    (hsubset : ∀ mapping ∈ mappings, mapping ∈ conditional.outputMappings)
    (htrue : ∀ mapping ∈ conditional.outputMappingsTrue, mapping ∈ mappings) :
    (conditional.withOutputs mappings).IsChecked
      (component.holding (conditional.withOutputs mappings)) whenTrue whenFalse := by
  obtain ⟨hthrough, hbeside⟩ := checkMappings_eq_ok.1 h.mappings
  refine ⟨rfl, ?_, ?_, h.componentTrue, h.componentFalse⟩
  · refine Component.validate_holding h.implementation h.valid (fun id hid => h.isConnected id ?_)
      fun node hnode hnew => absurd hnode hnew
    rcases List.mem_append.1 hid with hinput | houtput
    · exact List.mem_append_left _ hinput
    · obtain ⟨mapping, hmapping, rfl⟩ := List.mem_map.1 houtput
      exact List.mem_append_right _ (List.mem_map_of_mem (hsubset mapping hmapping))
  · refine checkMappings_eq_ok.2 ⟨hthrough, fun mapping hmapping hother => ?_⟩
    obtain ⟨beside, hmem, hnode, htarget⟩ := hbeside mapping (hsubset mapping hmapping) hother
    exact ⟨beside, htrue beside (mem_outputMappingsTrue.2 ⟨hmem, hnode⟩), hnode, htarget⟩

/-- The output mappings may stand in any order. -/
theorem rearranged (h : conditional.IsChecked component whenTrue whenFalse)
    (hperm : mappings.Perm conditional.outputMappings) :
    (conditional.withOutputs mappings).IsChecked
      (component.holding (conditional.withOutputs mappings)) whenTrue whenFalse :=
  h.withOutputs (fun _ hmapping => hperm.subset hmapping)
    fun _ hmapping => hperm.symm.subset (mem_outputMappingsTrue.1 hmapping).1

/-- The output mappings of the second branch may be left out. -/
theorem throughTrue (h : conditional.IsChecked component whenTrue whenFalse) :
    conditional.throughTrue.IsChecked (component.holding conditional.throughTrue) whenTrue
      whenFalse :=
  h.withOutputs (fun _ hmapping => (mem_outputMappingsTrue.1 hmapping).1) fun _ => id

end Conditional.IsChecked

/-! ## Questions for an output -/

/-- Without edges a claim is answered by a mapping or not at all. -/
theorem Graph.trace_of_edges_nil {graph : Graph} (hedges : graph.edges = [])
    (carried : PortRef → Lowered (Option String)) (steps : Nat) (claim : PortRef) :
    graph.trace carried (steps + 1) claim =
      match graph.inputMappings.find? (·.target = claim) with
      | some mapping => .ok mapping.source
      | none => fault (.unresolvedClaim claim.node claim.port) := by
  rw [trace, hedges]
  rfl

/-- What becomes of an output of a branch to which no input is mapped: where the branch carries a
volume there, the claim on it leads nowhere. -/
def Component.stranded (branch : Component) (ref : PortRef) : Lowered (Option String) := do
  match ← inside branch.id (branch.carried ref.port) with
  | none => return none
  | some inner => fault (.unresolvedClaim ref.node inner)

theorem Component.stranded_ne_some {input : String} (branch : Component) {ref : PortRef} :
    branch.stranded ref ≠ .ok (some input) := by
  intro h
  obtain ⟨answer, -, hinput⟩ := bind_eq_ok.1 h
  cases answer <;> cases hinput

/-- The branch puts out at a port the volume that it takes in from an input of the conditional. -/
def Conditional.Backs (conditional : Conditional) (branch : Component) (port input : String) :
    Prop :=
  ∃ inner, branch.carried port = .ok (some inner) ∧
    ⟨input, conditional.nodeTrue.id, inner⟩ ∈ conditional.inputMappings

/-- The input is mapped to one port of the branches at most. -/
def Conditional.HandsOnce (conditional : Conditional) (input : String) : Prop :=
  ∀ first ∈ conditional.inputMappings, ∀ second ∈ conditional.inputMappings,
    first.source = input → second.source = input → first = second

namespace Conditional.IsChecked

variable {conditional : Conditional} {component whenTrue : Component}
  {whenFalse : Option Component} {mapping : OutputMapping} {port : String}

theorem carried_of_none (h : conditional.IsChecked component whenTrue whenFalse)
    (hfind : conditional.outputMappings.find? (·.target = port) = none) :
    component.carried port = .ok none := by
  rw [Component.carried_of_composite port h.isComposite, h.wiring, Graph.traceOutput]
  simp only [Conditional.wiring, hfind]

/-- The branch behind the first mapping to an output is asked, and the claim on what it carries is
answered by a mapping. -/
theorem carried_of_branch (h : conditional.IsChecked component whenTrue whenFalse)
    (hfind : conditional.outputMappings.find? (·.target = port) = some mapping) {node : Node}
    {branch : Component}
    (hnode : conditional.branches.find? (·.id = mapping.source.node) = some node)
    (hbranch : node.component? = some branch) :
    component.carried port = (do
      match ← inside branch.id (branch.carried mapping.source.port) with
      | none => return none
      | some inner =>
        match conditional.inputMappings.find? (·.target = ⟨mapping.source.node, inner⟩) with
        | some input => return some input.source
        | none => fault (.unresolvedClaim mapping.source.node inner)) := by
  have hat : Node.carriedAt conditional.branches mapping.source =
      inside branch.id (branch.carried mapping.source.port) := by
    rw [Node.carriedAt_eq_find, hnode]
    exact Node.carried_of_component _ hbranch
  rw [Component.carried_of_composite port h.isComposite, h.wiring, Graph.traceOutput]
  simp only [Conditional.wiring, hfind, hat]
  refine bind_congr fun answer => ?_
  cases answer with
  | none => rfl
  | some inner =>
    simp only [Graph.traceBound]
    rw [Graph.trace_of_edges_nil rfl]
    simp only
    cases conditional.inputMappings.find? (·.target = ⟨mapping.source.node, inner⟩) <;> rfl

/-- Where a mapping of the first branch comes first, that branch is asked. -/
theorem carried_of_true (h : conditional.IsChecked component whenTrue whenFalse)
    (hfind : conditional.outputMappings.find? (·.target = port) = some mapping)
    (hnode : mapping.source.node = conditional.nodeTrue.id) :
    component.carried port = (do
      match ← inside whenTrue.id (whenTrue.carried mapping.source.port) with
      | none => return none
      | some inner =>
        match conditional.inputMappings.find? (·.target = ⟨mapping.source.node, inner⟩) with
        | some input => return some input.source
        | none => fault (.unresolvedClaim mapping.source.node inner)) := by
  refine h.carried_of_branch hfind ?_ h.componentTrue
  rw [branches, List.find?_cons_of_pos (by simpa using hnode.symm)]

/-- Where a mapping of the second branch comes first, the claim on what that branch carries leads
nowhere. -/
theorem carried_of_false (h : conditional.IsChecked component whenTrue whenFalse)
    (hfind : conditional.outputMappings.find? (·.target = port) = some mapping)
    (hnode : mapping.source.node ≠ conditional.nodeTrue.id) :
    ∃ branch, whenFalse = some branch ∧ component.carried port = branch.stranded mapping.source := by
  -- The mapping is from a branch, so it is from the second one.
  have hmem := List.mem_of_find?_eq_some hfind
  obtain ⟨node, hbranch, hid⟩ :=
    h.isConnected mapping.source.node (List.mem_append_right _ (List.mem_map_of_mem hmem))
  rcases componentFalse_eq_ok.1 h.componentFalse with
    ⟨hnone, -⟩ | ⟨nodeFalse, branch, hsome, hchild, -, -, rfl⟩
  · simp only [branches, hnone, Option.toList_none, List.mem_singleton] at hbranch
    rw [hbranch] at hid
    exact absurd hid.symm hnode
  · simp only [branches, hsome, Option.toList_some, List.mem_pair] at hbranch
    obtain rfl : node = nodeFalse := by
      rcases hbranch with rfl | rfl
      · exact absurd hid.symm hnode
      · rfl
    refine ⟨branch, rfl, ?_⟩
    have hfound : conditional.branches.find? (·.id = mapping.source.node) = some node := by
      rw [branches, hsome, List.find?_cons_of_neg (by simpa using hnode.symm),
        Option.toList_some, List.find?_cons_of_pos (by simpa using hid)]
    rw [h.carried_of_branch hfind hfound hchild, Component.stranded]
    refine bind_congr fun answer => ?_
    cases answer with
    | none => rfl
    | some inner =>
      -- All input mappings are to the first branch.
      have hnone : conditional.inputMappings.find?
          (·.target = ⟨mapping.source.node, inner⟩) = none :=
        find?_key_eq_none.2 fun input hinput htarget =>
          hnode (by rw [← h.target_node hinput, htarget])
      simp only [hnone]

end Conditional.IsChecked

/-! ## Small conditionals

Both branches are bricks whose ports are volumes. -/

/-- A brick that mounts the volumes of its inputs and puts one of them out at `out`. -/
def Component.mountingBrick (number : Nat) (inputs : List String) (passed : String) : Component :=
  let brick : Brick := ⟨.ofImage "alpine", inputs.map .port, [⟨"out", .volume passed⟩]⟩
  { Component.ofImplementation (.repeating number) "brick" (.brick brick) with
    inputs := inputs.map fun name => ⟨name, .volume⟩
    outputs := [⟨"out", .volume⟩] }

namespace Conditional

/-- Two branches, the first of which gets every input under its own name. -/
def ofBranches (inputs : List String) (whenTrue whenFalse : Component)
    (outputMappings : List OutputMapping) : Conditional where
  nodeTrue := ⟨"yes", .inline whenTrue⟩
  nodeFalse := some ⟨"no", .inline whenFalse⟩
  condition := ⟨.literal "1", .eq, .literal "2"⟩
  inputMappings := inputs.map fun name => ⟨name, ⟨"yes", name⟩⟩
  outputMappings := outputMappings

/-- A conditional alone in a component that takes in volumes and puts one out. -/
def alone (conditional : Conditional) (inputs : List String) : Component :=
  { Component.ofImplementation (.repeating 3) "choice" (.conditional conditional) with
    inputs := inputs.map fun name => ⟨name, .volume⟩
    outputs := [⟨"out", .volume⟩] }

/-- Both branches pass on the one volume, and both are mapped to the output. -/
def shared : Conditional :=
  .ofBranches ["in"] (.mountingBrick 1 ["in"] "in") (.mountingBrick 2 ["in"] "in")
    [⟨⟨"yes", "out"⟩, "out"⟩, ⟨⟨"no", "out"⟩, "out"⟩]

theorem shared_isChecked :
    shared.IsChecked (shared.alone ["in"]) (.mountingBrick 1 ["in"] "in")
      (some (.mountingBrick 2 ["in"] "in")) :=
  ⟨rfl, by decide, by decide, rfl, rfl⟩

end Conditional

/-! ## The order of the output mappings -/

namespace Conditional

variable {conditional : Conditional} {component whenTrue : Component}
  {whenFalse : Option Component} {mappings : List OutputMapping} {mapping : OutputMapping}

/-- No branch has two mappings to one output. -/
def MapsOnce (conditional : Conditional) : Prop :=
  (conditional.outputMappings.map fun mapping => (mapping.source.node, mapping.target)).Nodup

instance (conditional : Conditional) : Decidable conditional.MapsOnce :=
  inferInstanceAs (Decidable (List.Nodup _))

/-- The one mapping of the first branch to an output is the first that is found. -/
theorem MapsOnce.find?_outputMappingsTrue (honce : conditional.MapsOnce)
    (hmem : mapping ∈ conditional.outputMappingsTrue) :
    conditional.outputMappingsTrue.find? (·.target = mapping.target) = some mapping := by
  refine find?_of_nodup ?_ hmem
  have htrue : (conditional.outputMappingsTrue.map fun mapping =>
      (mapping.source.node, mapping.target)).Nodup :=
    honce.sublist (List.filter_sublist.map _)
  -- All of these come from one node, so that their targets tell them apart.
  have hpairs : conditional.outputMappingsTrue.map (fun mapping =>
        (mapping.source.node, mapping.target)) =
      (conditional.outputMappingsTrue.map (·.target)).map (conditional.nodeTrue.id, ·) := by
    rw [List.map_map]
    refine List.map_congr_left fun mapping hmapping => ?_
    rw [Function.comp_apply, (mem_outputMappingsTrue.1 hmapping).2]
  rw [hpairs] at htrue
  exact htrue.of_map _

/-- In any order the output is what the first branch makes of it, unless a mapping of the second one
comes first. -/
theorem IsChecked.carried_rearranged (h : conditional.IsChecked component whenTrue whenFalse)
    (honce : conditional.MapsOnce) (hperm : mappings.Perm conditional.outputMappings)
    (port : String) :
    (component.holding (conditional.withOutputs mappings)).carried port =
        (component.holding conditional.throughTrue).carried port ∨
      ∃ mapping branch, mappings.find? (·.target = port) = some mapping ∧
        mapping.source.node ≠ conditional.nodeTrue.id ∧ whenFalse = some branch ∧
        (component.holding (conditional.withOutputs mappings)).carried port =
          branch.stranded mapping.source := by
  have hrearranged := h.rearranged hperm
  cases hfind : mappings.find? (·.target = port) with
  | none =>
    -- What is mapped in no order is not mapped from the first branch either.
    have hnone : conditional.outputMappingsTrue.find? (·.target = port) = none :=
      find?_key_eq_none.2 fun mapping hmapping =>
        find?_key_eq_none.1 hfind mapping
          (hperm.symm.subset (mem_outputMappingsTrue.1 hmapping).1)
    left
    rw [hrearranged.carried_of_none hfind, h.throughTrue.carried_of_none hnone]
  | some mapping =>
    by_cases hnode : mapping.source.node = conditional.nodeTrue.id
    · have hmem : mapping ∈ conditional.outputMappingsTrue :=
        mem_outputMappingsTrue.2 ⟨hperm.subset (List.mem_of_find?_eq_some hfind), hnode⟩
      obtain rfl : mapping.target = port := key_of_find? hfind
      left
      rw [hrearranged.carried_of_true hfind hnode,
        h.throughTrue.carried_of_true (honce.find?_outputMappingsTrue hmem) hnode]
      rfl
    · obtain ⟨branch, hbranch, hcarried⟩ := hrearranged.carried_of_false hfind hnode
      exact .inr ⟨mapping, branch, rfl, hnode, hbranch, hcarried⟩

/-- Any mapping may come first in some order. -/
theorem IsChecked.exists_stranded (h : conditional.IsChecked component whenTrue whenFalse)
    (hmapping : mapping ∈ conditional.outputMappings)
    (hnode : mapping.source.node ≠ conditional.nodeTrue.id) :
    ∃ mappings branch, mappings.Perm conditional.outputMappings ∧ whenFalse = some branch ∧
      (component.holding (conditional.withOutputs mappings)).carried mapping.target =
        branch.stranded mapping.source := by
  have hperm := (List.perm_cons_erase hmapping).symm
  have hfind : (mapping :: conditional.outputMappings.erase mapping).find?
      (·.target = mapping.target) = some mapping :=
    List.find?_cons_of_pos (by simp)
  obtain ⟨branch, hbranch, hcarried⟩ := (h.rearranged hperm).carried_of_false hfind hnode
  exact ⟨_, branch, hperm, hbranch, hcarried⟩

/-- **The answer for an output depends on the order of the output mappings.** In every order the
conditional passes its checks. Its answer is the one through the first branch, or, when a mapping of
the second branch comes first, what becomes of an output to which no input is mapped. So all orders
answer alike exactly when nothing is mapped from the second branch to the output but where both
branches fail, or both carry nothing. -/
theorem answers_alike_iff (h : conditional.IsChecked component whenTrue whenFalse)
    (honce : conditional.MapsOnce) (port : String) :
    (∀ mappings, mappings.Perm conditional.outputMappings →
      (conditional.withOutputs mappings).IsChecked
        (component.holding (conditional.withOutputs mappings)) whenTrue whenFalse ∧
      ((component.holding (conditional.withOutputs mappings)).carried port =
          (component.holding conditional.throughTrue).carried port ∨
        ∃ mapping branch, mappings.find? (·.target = port) = some mapping ∧
          mapping.source.node ≠ conditional.nodeTrue.id ∧ whenFalse = some branch ∧
          (component.holding (conditional.withOutputs mappings)).carried port =
            branch.stranded mapping.source)) ∧
    ((∀ mappings, mappings.Perm conditional.outputMappings →
        ((component.holding (conditional.withOutputs mappings)).carried port).toOption =
          ((component.holding conditional.throughTrue).carried port).toOption) ↔
      ∀ mapping ∈ conditional.outputMappings, mapping.target = port →
        mapping.source.node ≠ conditional.nodeTrue.id → ∀ branch, whenFalse = some branch →
          (branch.stranded mapping.source).toOption =
            ((component.holding conditional.throughTrue).carried port).toOption) := by
  refine ⟨fun mappings hperm => ⟨h.rearranged hperm, h.carried_rearranged honce hperm port⟩, ?_⟩
  constructor
  · rintro halike mapping hmapping rfl hnode branch hbranch
    obtain ⟨mappings, found, hperm, hfound, hcarried⟩ := h.exists_stranded hmapping hnode
    obtain rfl := Option.some.inj (hbranch.symm.trans hfound)
    rw [← hcarried]
    exact halike mappings hperm
  · intro hfalse mappings hperm
    rcases h.carried_rearranged honce hperm port with
      htrue | ⟨mapping, branch, hfind, hnode, hbranch, hcarried⟩
    · rw [htrue]
    · rw [hcarried]
      have hmem := hperm.subset (List.mem_of_find?_eq_some hfind)
      exact hfalse mapping hmem (key_of_find? hfind) hnode branch hbranch

/-- The two orders of two mappings to one output do not answer alike. -/
theorem shared_not_alike :
    ¬ ∀ mappings, mappings.Perm shared.outputMappings →
      (((shared.alone ["in"]).holding (shared.withOutputs mappings)).carried "out").toOption =
        (((shared.alone ["in"]).holding shared.throughTrue).carried "out").toOption := by
  intro halike
  have hfalse := (answers_alike_iff shared_isChecked (by decide) "out").2.1 halike
    ⟨⟨"no", "out"⟩, "out"⟩ (by decide) rfl (by decide) _ rfl
  revert hfalse
  decide

/-- The conditional passes its checks in both orders of its two output mappings, one from each branch.
In the one order its output is backed by its input, in the other one the question fails. -/
theorem shared_depends_on_order :
    shared.outputMappings.reverse.Perm shared.outputMappings ∧ shared.MapsOnce ∧
      shared.IsChecked (shared.alone ["in"]) (.mountingBrick 1 ["in"] "in")
        (some (.mountingBrick 2 ["in"] "in")) ∧
      (shared.alone ["in"]).carried "out" = .ok (some "in") ∧
      ((shared.alone ["in"]).holding
        (shared.withOutputs shared.outputMappings.reverse)).carried "out" =
        .error (.here (.unresolvedClaim "no" "in")) :=
  ⟨List.reverse_perm _, by decide, shared_isChecked, by decide, by decide⟩

/-- Where the first branch backs an output, every order finds that out exactly when only this branch
is mapped to the output. -/
theorem IsChecked.backed_in_every_order_iff
    (h : conditional.IsChecked component whenTrue whenFalse) (honce : conditional.MapsOnce)
    {port input : String}
    (hbacked : (component.holding conditional.throughTrue).carried port = .ok (some input)) :
    (∀ mappings, mappings.Perm conditional.outputMappings →
        (component.holding (conditional.withOutputs mappings)).carried port = .ok (some input)) ↔
      ∀ mapping ∈ conditional.outputMappings, mapping.target = port →
        mapping.source.node = conditional.nodeTrue.id := by
  constructor
  · rintro hevery mapping hmapping rfl
    by_contra hnode
    obtain ⟨mappings, branch, hperm, -, hcarried⟩ := h.exists_stranded hmapping hnode
    exact branch.stranded_ne_some (hcarried.symm.trans (hevery mappings hperm))
  · intro htrue mappings hperm
    rcases h.carried_rearranged honce hperm port with
      hcarried | ⟨mapping, branch, hfind, hnode, -, -⟩
    · rw [hcarried, hbacked]
    · have hmem := hperm.subset (List.mem_of_find?_eq_some hfind)
      exact absurd (htrue mapping hmem (key_of_find? hfind)) hnode

end Conditional

/-! ## Either branch -/

namespace Conditional.IsChecked

variable {conditional : Conditional} {component whenTrue : Component}
  {whenFalse : Option Component} {port input : String}

/-- An answer is found through the first mapping to the output, which is from the first branch, and
through the first mapping to the input that this branch carries there. -/
theorem carried_eq_some (h : conditional.IsChecked component whenTrue whenFalse) :
    component.carried port = .ok (some input) ↔
      ∃ mapping inner, conditional.outputMappings.find? (·.target = port) = some mapping ∧
        mapping.source.node = conditional.nodeTrue.id ∧
        whenTrue.carried mapping.source.port = .ok (some inner) ∧
        (conditional.inputMappings.find? (·.target = ⟨conditional.nodeTrue.id, inner⟩)).map
          (·.source) = some input := by
  constructor
  · intro hsome
    cases hfind : conditional.outputMappings.find? (·.target = port) with
    | none => simp [h.carried_of_none hfind] at hsome
    | some mapping =>
      by_cases hnode : mapping.source.node = conditional.nodeTrue.id
      · rw [h.carried_of_true hfind hnode] at hsome
        obtain ⟨answer, hanswer, hsome⟩ := bind_eq_ok.1 hsome
        cases answer with
        | none => cases hsome
        | some inner =>
          refine ⟨mapping, inner, rfl, hnode, inside_eq_ok.1 hanswer, ?_⟩
          rw [← hnode]
          cases hmapped : conditional.inputMappings.find?
              (·.target = ⟨mapping.source.node, inner⟩) with
          | none => simp [hmapped, fault] at hsome
          | some found => simpa [hmapped, pure_eq_ok] using hsome
      · obtain ⟨branch, -, hcarried⟩ := h.carried_of_false hfind hnode
        exact absurd (hcarried.symm.trans hsome) branch.stranded_ne_some
  · rintro ⟨mapping, inner, hfind, hnode, hinner, hinput⟩
    obtain ⟨found, hfound, rfl⟩ := Option.map_eq_some_iff.1 hinput
    rw [h.carried_of_true hfind hnode]
    refine bind_eq_ok.2 ⟨some inner, inside_eq_ok.2 hinner, ?_⟩
    simp only [hnode, hfound]
    rfl

/-- Any valid component with the right ports may stand at the second branch. -/
theorem withFalse {whenFalse other : Component}
    (h : conditional.IsChecked component whenTrue (some whenFalse)) {node : Node}
    (hid : conditional.nodeFalse.map (·.id) = some node.id) (hother : node.component? = some other)
    (hvalid : other.validate = .ok ())
    (hinputs : Port.sameSet whenTrue.inputs other.inputs = true)
    (houtputs : Port.sameSet whenTrue.outputs other.outputs = true) :
    (conditional.withFalse node).IsChecked (component.holding (conditional.withFalse node)) whenTrue
      (some other) := by
  obtain ⟨old, hold, holdId⟩ := Option.map_eq_some_iff.1 hid
  refine ⟨rfl, ?_, h.mappings, h.componentTrue, ?_⟩
  · refine Component.validate_holding h.implementation h.valid (fun id hid => ?_)
      fun found hfound hnew child hchild => ?_
    · obtain ⟨branch, hbranch, rfl⟩ := h.isConnected id hid
      simp only [branches, hold, Option.toList_some, List.mem_pair] at hbranch
      rcases hbranch with rfl | rfl
      · exact ⟨conditional.nodeTrue, List.mem_cons_self, rfl⟩
      · exact ⟨node, List.mem_cons_of_mem _ (List.mem_singleton_self node), holdId.symm⟩
    · -- The only new branch is the one that was put in.
      simp only [branches, Conditional.withFalse, Option.toList_some, List.mem_pair] at hfound
      rcases hfound with rfl | rfl
      · exact absurd List.mem_cons_self hnew
      · obtain rfl := Option.some.inj (hother.symm.trans hchild)
        exact hvalid
  · exact componentFalse_eq_ok.2 (.inr ⟨node, other, rfl, hother, hinputs, houtputs, rfl⟩)

end Conditional.IsChecked

namespace Conditional

variable {conditional : Conditional} {component whenTrue whenFalse : Component}
  {port input : String}

/-- **The answer for an output is right for the first branch.** The first mapping to the output is
from that branch, which puts out there what it takes in from the input of the answer. The second
branch does the same if it is backed like the first one, and only then where the input is mapped to
one port. But it has no part in the answer: whatever valid component with the right ports stands
there, the conditional passes its checks and answers the same. -/
theorem answer_of_first_branch (h : conditional.IsChecked component whenTrue (some whenFalse))
    (hanswer : component.carried port = .ok (some input)) :
    ∃ mapping, conditional.outputMappings.find? (·.target = port) = some mapping ∧
      mapping.source.node = conditional.nodeTrue.id ∧
      conditional.Backs whenTrue mapping.source.port input ∧
      (∀ portFalse, conditional.portFalse mapping = some portFalse →
        (whenFalse.carried portFalse = whenTrue.carried mapping.source.port →
          conditional.Backs whenFalse portFalse input) ∧
        (conditional.HandsOnce input → conditional.Backs whenFalse portFalse input →
          whenFalse.carried portFalse = whenTrue.carried mapping.source.port)) ∧
      ∀ node other, conditional.nodeFalse.map (·.id) = some node.id →
        node.component? = some other → other.validate = .ok () →
        Port.sameSet whenTrue.inputs other.inputs = true →
        Port.sameSet whenTrue.outputs other.outputs = true →
        (conditional.withFalse node).IsChecked (component.holding (conditional.withFalse node))
          whenTrue (some other) ∧
        (component.holding (conditional.withFalse node)).carried port = .ok (some input) := by
  obtain ⟨mapping, inner, hfind, hnode, hinner, hinput⟩ := h.carried_eq_some.1 hanswer
  obtain ⟨found, hfound, rfl⟩ := Option.map_eq_some_iff.1 hinput
  -- The mapping that was found joins the answer to what the first branch carries.
  have hmapped : ⟨found.source, conditional.nodeTrue.id, inner⟩ ∈ conditional.inputMappings := by
    have htarget : found.target = ⟨conditional.nodeTrue.id, inner⟩ := key_of_find? hfound
    rw [← htarget]
    exact List.mem_of_find?_eq_some hfound
  refine ⟨mapping, hfind, hnode, ⟨inner, hinner, hmapped⟩, ?_, ?_⟩
  · refine fun portFalse _ => ⟨fun hsame => ⟨inner, hsame.trans hinner, hmapped⟩, ?_⟩
    rintro honce ⟨second, hsecond, hmappedSecond⟩
    cases honce _ hmapped _ hmappedSecond rfl rfl
    exact hsecond.trans hinner.symm
  · intro node other hid hother hvalid hinputs houtputs
    have hchecked := h.withFalse hid hother hvalid hinputs houtputs
    exact ⟨hchecked, hchecked.carried_eq_some.2 ⟨mapping, inner, hfind, hnode, hinner, hinput⟩⟩

/-- Both branches of a conditional put out the volume that it takes in. -/
theorem shared_backs_either :
    shared.Backs (.mountingBrick 1 ["in"] "in") "out" "in" ∧
      shared.Backs (.mountingBrick 2 ["in"] "in") "out" "in" := by
  have hanswer : (shared.alone ["in"]).carried "out" = .ok (some "in") := by decide
  obtain ⟨mapping, hfind, -, htrue, hfalse, -⟩ := answer_of_first_branch shared_isChecked hanswer
  obtain rfl : ⟨⟨"yes", "out"⟩, "out"⟩ = mapping := Option.some.inj hfind
  exact ⟨htrue, (hfalse "out" rfl).1 (by decide)⟩

/-- Each branch puts out another of the two volumes, and only the first one is mapped. -/
def parted : Conditional :=
  .ofBranches ["a", "b"] (.mountingBrick 1 ["a", "b"] "a") (.mountingBrick 2 ["a", "b"] "b")
    [⟨⟨"yes", "out"⟩, "out"⟩]

/-- The conditional passes its checks and answers by the first input, and its second branch puts out
the volume of the other one. -/
theorem parted_backs_first_only :
    parted.IsChecked (parted.alone ["a", "b"]) (.mountingBrick 1 ["a", "b"] "a")
        (some (.mountingBrick 2 ["a", "b"] "b")) ∧
      (parted.alone ["a", "b"]).carried "out" = .ok (some "a") ∧
      parted.portFalse ⟨⟨"yes", "out"⟩, "out"⟩ = some "out" ∧
      ¬ parted.Backs (.mountingBrick 2 ["a", "b"] "b") "out" "a" := by
  refine ⟨⟨rfl, by decide, by decide, rfl, rfl⟩, by decide, rfl, ?_⟩
  rintro ⟨inner, hinner, hmapped⟩
  obtain rfl : "b" = inner := Option.some.inj (Except.ok.inj hinner)
  revert hmapped
  decide

end Conditional

end Pipeline
