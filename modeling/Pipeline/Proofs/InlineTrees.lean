/-
Inline trees: what dereferencing leaves, and what lowering asks for.

In an inline tree no node holds a reference. An unfolding is such a tree, so that is
what dereferencing comes to. There is nothing left in it to resolve: expanding it
again gives it back as it is, whatever the resolver, which is not even asked
(`Component.expand_of_isInline`).

Lowering looks at what nodes hold in three places: where it wires a task, where it
goes on to the children, and where a claim follows a volume inwards. Each of them
finds a component that is written out, the last one however deep it goes, since the
trees below an inline tree are inline as well.
-/
import Pipeline.Lowering.Workflow
import Pipeline.Proofs.Dereferencing
import Pipeline.Proofs.LoweringFaults

set_option autoImplicit false

namespace Pipeline

/-! ## What is meant -/

/-- Every node in the tree holds a component that is written out. -/
def Component.IsInline (component : Component) : Prop :=
  ∀ inner, component.Within inner → ∀ node ∈ inner.children, ∃ child, node.component? = some child

/-- The node holds an inline tree. -/
def Node.IsInline (node : Node) : Prop :=
  ∃ child, node.component? = some child ∧ child.IsInline

/-- The root of the job is written out, and holds an inline tree. -/
def Job.IsInline (job : Job) : Prop :=
  ∃ root, job.workflow.component = .inline root ∧ root.IsInline

namespace Component

variable {component : Component}

/-- A tree is inline when its nodes hold inline trees. -/
theorem isInline_iff : component.IsInline ↔ ∀ node ∈ component.children, node.IsInline := by
  constructor
  · intro h node hnode
    obtain ⟨child, hchild⟩ := h component (Within.refl component) node hnode
    exact ⟨child, hchild, fun inner hinner => h inner (hinner.below ⟨node, hnode, hchild⟩)⟩
  · intro h inner hinner node hnode
    rcases within_iff.1 hinner with rfl | ⟨child, ⟨place, hplace, hchild⟩, hinner⟩
    · obtain ⟨child, hchild, -⟩ := h node hnode
      exact ⟨child, hchild⟩
    · obtain ⟨child', hchild', hinline⟩ := h place hplace
      obtain rfl := Option.some.inj (hchild.symm.trans hchild')
      exact hinline inner hinner node hnode

theorem IsInline.child (h : component.IsInline) {child : Component}
    (hchild : component.HasChild child) : child.IsInline :=
  fun inner hinner => h inner (hinner.below hchild)

end Component

/-! ## The check -/

theorem Node.isDereferenced_iff {node : Node} :
    node.isDereferenced = true ↔
      ∃ child, node.component? = some child ∧ child.isDereferenced = true := by
  obtain ⟨id, target⟩ := node
  cases target <;> simp [isDereferenced, component?, NodeRef.component?]

theorem Node.allDereferenced_iff {nodes : List Node} :
    Node.allDereferenced nodes = true ↔ ∀ node ∈ nodes, node.isDereferenced = true := by
  induction nodes with
  | nil => simp [allDereferenced]
  | cons node nodes ih => rw [allDereferenced, Bool.and_eq_true, ih, List.forall_mem_cons]

namespace Component

variable {component : Component}

theorem isDereferenced_iff :
    component.isDereferenced = true ↔
      ∀ node ∈ component.children, node.isDereferenced = true := by
  obtain ⟨id, name, description, modifier, timestamp, version, inputs, outputs, implementation⟩ :=
    component
  cases implementation with
  | brick block => simp [isDereferenced, children, Implementation.children]
  | any => simp [isDereferenced, children, Implementation.children]
  | graph block =>
    obtain ⟨nodes, edges, inputMappings, outputMappings⟩ := block
    rw [isDereferenced]
    exact Node.allDereferenced_iff
  | map block =>
    obtain ⟨node, inputMappings, outputMappings⟩ := block
    simp [isDereferenced, children, Implementation.children]
  | conditional block =>
    obtain ⟨nodeTrue, nodeFalse, condition, inputMappings, outputMappings⟩ := block
    cases nodeFalse <;>
      simp [isDereferenced, children, Implementation.children, Conditional.branches]

/-- The check finds out whether a tree is inline. -/
theorem isDereferenced_iff_isInline : component.isDereferenced = true ↔ component.IsInline := by
  induction component using Component.induction with
  | step component ih =>
    rw [isDereferenced_iff, isInline_iff]
    refine forall₂_congr fun node hnode => ?_
    rw [Node.isDereferenced_iff]
    refine exists_congr fun child => and_congr_right fun hchild => ?_
    exact ih child ⟨node, hnode, hchild⟩

end Component

/-! ## Nothing is left to resolve -/

section Unfolds

variable {answer : Request → Option Component}

/-- Whatever a node held, what is put in is an unfolding. -/
theorem Node.Unfolds.exists_child {node result : Node} (h : node.Unfolds answer result) :
    ∃ component child : Component,
      result.component? = some child ∧ component.Unfolds answer child := by
  cases h with
  | inline _ hunfolds => exact ⟨_, _, rfl, hunfolds⟩
  | reference _ _ hunfolds => exact ⟨_, _, rfl, hunfolds⟩

/-- An unfolding is an inline tree. -/
theorem Component.Unfolds.isInline {component result : Component}
    (h : component.Unfolds answer result) : result.IsInline := by
  induction result using Component.induction generalizing component with
  | step result ih =>
    rw [isInline_iff]
    intro place hplace
    obtain ⟨node, -, hunfolds⟩ := exists_related h.forall₂_children.flip hplace
    obtain ⟨stored, child, hchild, hunfolds⟩ := hunfolds.exists_child
    exact ⟨child, hchild, ih child ⟨place, hplace, hchild⟩ hunfolds⟩

theorem Node.Unfolds.isInline {node result : Node} (h : node.Unfolds answer result) :
    result.IsInline := by
  obtain ⟨component, child, hchild, hunfolds⟩ := h.exists_child
  exact ⟨child, hchild, hunfolds.isInline⟩

end Unfolds

/-- Steps that change nothing and do not ask change nothing together. -/
theorem Asked.mapM_eq_pure {ε α : Type} {step : α → Asked ε α} {values : List α}
    (h : ∀ value ∈ values, step value = Asked.pure value) :
    values.mapM step = Asked.pure values := by
  induction values with
  | nil => rfl
  | cons value values ih =>
    rw [List.mapM_cons, h value List.mem_cons_self,
      ih fun other hother => h other (List.mem_cons_of_mem _ hother)]
    rfl

section Expand

variable {ε : Type} (resolver : Resolver ε)

/-- A node stays as it is when the component at it does. -/
theorem Node.expand_eq_pure {node : Node} {child : Component}
    (hchild : node.component? = some child) (h : child.expand resolver = .pure child) :
    node.expand resolver = .pure node := by
  obtain ⟨id, target⟩ := node
  cases target with
  | inline inner =>
    obtain rfl : inner = child := Option.some.inj hchild
    rw [Node.expand, NodeRef.expand, h]
    rfl
  | latest _ => cases hchild
  | pinned _ _ => cases hchild

/-- An inline tree is expanded to itself, and no resolver is asked. -/
theorem Component.expand_of_isInline {component : Component} (h : component.IsInline) :
    component.expand resolver = .pure component := by
  induction component using Component.induction with
  | step component ih =>
    have hnodes : ∀ node ∈ component.children, node.expand resolver = .pure node := by
      intro node hnode
      obtain ⟨child, hchild, hinline⟩ := isInline_iff.1 h node hnode
      exact Node.expand_eq_pure resolver hchild (ih child ⟨node, hnode, hchild⟩ hinline)
    rw [expand_eq, Asked.mapM_eq_pure hnodes]
    exact congrArg Asked.pure component.withChildren_children

end Expand

/-! ## Lowering meets no reference -/

/-- The fault of asking for a component where there is a reference. -/
def LoweringFault.IsReference : LoweringFault → Prop
  | .notDereferenced _ _ => True
  | _ => False

theorem LoweringFault.IsReference.isAboutNodes {cause : LoweringFault} (h : cause.IsReference) :
    cause.IsAboutNodes := by
  cases cause <;> first | exact h | exact trivial

/-- Work that never meets a reference. -/
abbrev MeetsNoReference {α : Type} (work : Lowered α) : Prop :=
  FailsOnly (fun cause => ¬ cause.IsReference) work

theorem Graph.trace_meetsNoReference {graph : Graph}
    {carried : PortRef → Lowered (Option String)} (hcarried : ∀ ref, MeetsNoReference (carried ref))
    (steps : Nat) (claim : PortRef) : MeetsNoReference (graph.trace carried steps claim) := by
  induction steps generalizing claim with
  | zero => exact FailsOnly.fault not_false
  | succ steps ih =>
    exact trace_succ_failsWith (fun _ _ => not_false) (fun edge _ => hcarried edge.source)
      fun edge _ _ input => ih ⟨edge.source.node, input⟩

theorem Node.component_meetsNoReference {node : Node} (h : node.IsInline) :
    MeetsNoReference node.component := by
  obtain ⟨child, hchild, -⟩ := h
  rw [component_eq_ok.2 hchild]
  exact FailsOnly.ok child

namespace Component

variable {component : Component}

theorem IsInline.wiring_nodes (h : component.IsInline) :
    ∀ node ∈ component.wiring.nodes, node.IsInline := by
  rw [← children_eq_nodes]
  exact isInline_iff.1 h

/-- The nodes of an inline tree answer for an output without meeting a reference, if the trees at
them do. -/
theorem carriedAt_meetsNoReference (h : component.IsInline) {ref : PortRef}
    (hchild : ∀ child, component.HasChild child → MeetsNoReference (child.carried ref.port)) :
    MeetsNoReference (Node.carriedAt component.wiring.nodes ref) := by
  refine Node.carriedAt_failsWith (fun _ => not_false) (fun node hnode => ?_)
    fun node hnode child hcomponent => hchild child (hasChild_of_node hnode hcomponent)
  exact Node.component_meetsNoReference (h.wiring_nodes node hnode)

theorem carried_meetsNoReference (h : component.IsInline) (port : String) :
    MeetsNoReference (component.carried port) := by
  induction component using Component.induction generalizing port with
  | step component ih =>
    rcases component.brick_or_composite with ⟨brick, hbrick⟩ | hcomposite
    · rw [carried_of_brick port hbrick]
      exact FailsOnly.ok _
    · rw [carried_of_composite port hcomposite]
      have hcarried : ∀ ref, MeetsNoReference (Node.carriedAt component.wiring.nodes ref) :=
        fun ref => carriedAt_meetsNoReference h fun child hchild =>
          ih child hchild (h.child hchild) ref.port
      exact Graph.traceOutput_failsWith (fun mapping _ => hcarried mapping.source)
        (Graph.trace_meetsNoReference hcarried _) port

theorem traceInput_meetsNoReference (h : component.IsInline) (claim : PortRef) :
    MeetsNoReference (component.wiring.traceInput claim) := by
  refine Graph.trace_meetsNoReference (fun ref => ?_) _ claim
  refine carriedAt_meetsNoReference h fun child hchild => ?_
  exact carried_meetsNoReference (h.child hchild) ref.port

/-- The node at the beginning of an edge, if it is there, holds no reference. -/
theorem wiring_component_meetsNoReference (h : component.IsInline) (id : String) :
    MeetsNoReference (component.wiring.component id) :=
  Graph.component_failsWith (fun _ => not_false) fun node hnode =>
    Node.component_meetsNoReference (h.wiring_nodes node hnode)

theorem templates_meetsNoReference (h : component.IsInline) (settings : Settings)
    (scopes : Scopes) : MeetsNoReference (component.templates settings scopes) := by
  refine templates_failsOnly (fun _ => not_false) fun _ => ?_
  have hown : ∀ cause : LoweringFault, cause.IsOwn → ¬ cause.IsReference :=
    fun _ hown => mt LoweringFault.IsReference.isAboutNodes hown.not_isAboutNodes
  refine allTemplates_failsOnly hown IsInline settings ?_ ?_ ?_ ?_ component h scopes
  · exact fun component child hinline hchild => hinline.child hchild
  · exact fun component hinline node hnode =>
      Node.component_meetsNoReference (isInline_iff.1 hinline node hnode)
  · exact fun component hinline edge _ => wiring_component_meetsNoReference hinline edge.source.node
  · exact fun component hinline claim => traceInput_meetsNoReference hinline claim

end Component

/-! ## Jobs -/

theorem Seed.giveAll_failsHere (root : Component) (bound : List String) (seed : Seed)
    (values : List InputValue) : FailsHere (seed.giveAll root bound values) := by
  induction values generalizing bound seed with
  | nil => exact FailsWith.ok _
  | cons value values ih =>
    rw [giveAll]
    refine FailsWith.bind ?_ fun port _ => ?_
    · rw [targetOf]
      split
      · exact FailsWith.ok _
      · exact FailsWith.fault ⟨rfl, trivial⟩
    · split
      · exact FailsWith.fault ⟨rfl, trivial⟩
      · split
        · exact FailsWith.fault ⟨rfl, trivial⟩
        · exact ih _ _

theorem Job.lower_meetsNoReference {job : Job} (h : job.IsInline) (settings : Settings) :
    MeetsNoReference (job.lower settings) := by
  obtain ⟨root, hroot, hinline⟩ := h
  have hnode : Node.IsInline ⟨rootNode, job.workflow.component⟩ := ⟨root, by rw [hroot]; rfl, hinline⟩
  refine (Node.component_meetsNoReference hnode).bind fun component hcomponent => ?_
  obtain rfl : root = component := by
    rw [Node.component, hroot] at hcomponent
    exact Except.ok.inj hcomponent
  refine FailsOnly.bind ?_ fun seed _ => ?_
  · exact (Seed.giveAll_failsHere root [] .empty job.inputs).failsWith
      fun _ hown => mt LoweringFault.IsReference.isAboutNodes hown.not_isAboutNodes
  · refine (Component.templates_meetsNoReference hinline settings seed.scopes).bind fun _ _ => ?_
    exact FailsOnly.ok _

/-! ## Dereferencing twice -/

section Dereference

variable {ε ε' : Type} {lookup : Lookup ε} (other : Lookup ε')

/-- What a node comes to is what it unfolds to. -/
theorem Node.unfolds_of_dereference {node result : Node}
    (h : (node.dereference lookup).outcome = .ok result) : node.Unfolds lookup.answer? result :=
  unfolds_of_expand (fun _ _ _ => unfoldsTo_of_resolve .empty)
    (fun _ _ _ => Component.unfolds_of_dereference) h

/-- What a reference comes to is what a node that holds it comes to. -/
theorem NodeRef.isInline_of_dereference {ref : NodeRef} {id : String} {result : Component}
    (h : (ref.dereference lookup id).outcome = .ok result) : result.IsInline := by
  have hnode : (Node.dereference lookup ⟨id, ref⟩).outcome = .ok ⟨id, .inline result⟩ :=
    (Node.expand_eq_ok _).2 ⟨result, h, rfl⟩
  obtain ⟨child, hchild, hinline⟩ := (Node.unfolds_of_dereference hnode).isInline
  obtain rfl := Option.some.inj hchild
  exact hinline

theorem Component.dereference_of_isInline {component : Component} (h : component.IsInline) :
    component.dereference other = ⟨[], .ok component⟩ :=
  expand_of_isInline _ h

theorem NodeRef.dereference_of_isInline {component : Component} (h : component.IsInline)
    (id : String) : (NodeRef.inline component).dereference other id = ⟨[], .ok component⟩ := by
  rw [NodeRef.dereference, NodeRef.expand, component.expand_of_isInline _ h]
  rfl

theorem Node.dereference_of_isInline {node : Node} (h : node.IsInline) :
    node.dereference other = ⟨[], .ok node⟩ := by
  obtain ⟨child, hchild, hinline⟩ := h
  exact expand_eq_pure _ hchild (child.expand_of_isInline _ hinline)

theorem Job.dereference_of_isInline {job : Job} (h : job.IsInline) :
    job.dereference other = ⟨[], .ok job⟩ := by
  obtain ⟨⟨id, name, workspace, component⟩, inputs⟩ := job
  obtain ⟨root, hroot, hinline⟩ := h
  obtain rfl : component = .inline root := hroot
  rw [Job.dereference, NodeRef.dereference_of_isInline other hinline]
  rfl

/-- **Dereferencing is done once.** What a component, a node, a reference or a job comes to by some
lookup is inline at every depth, which is what the check of components finds out; to dereference it
by any other lookup, be it one that always fails, gives it back as it is, without a request. And a
job that is inline is never refused because a node holds a reference. -/
theorem Lookup.dereference_fixpoint {ε ε' : Type} (lookup : Lookup ε) (other : Lookup ε') :
    (∀ component : Component, component.isDereferenced = true ↔ component.IsInline) ∧
      (∀ component result : Component, (component.dereference lookup).outcome = .ok result →
        result.IsInline ∧ result.dereference other = ⟨[], .ok result⟩) ∧
      (∀ node result : Node, (node.dereference lookup).outcome = .ok result →
        result.IsInline ∧ result.dereference other = ⟨[], .ok result⟩) ∧
      (∀ (ref : NodeRef) (id : String) (result : Component),
        (ref.dereference lookup id).outcome = .ok result →
        result.IsInline ∧
          ∀ place, (NodeRef.inline result).dereference other place = ⟨[], .ok result⟩) ∧
      (∀ job result : Job, (job.dereference lookup).outcome = .ok result →
        result.IsInline ∧ result.dereference other = ⟨[], .ok result⟩) ∧
      ∀ (job : Job) (settings : Settings) (error : LoweringError), job.IsInline →
        job.lower settings = .error error →
        ∀ node variant, error.cause ≠ .notDereferenced node variant := by
  refine ⟨fun component => Component.isDereferenced_iff_isInline, ?_, ?_, ?_, ?_, ?_⟩
  · intro component result h
    have hinline := (Component.unfolds_of_dereference h).isInline
    exact ⟨hinline, Component.dereference_of_isInline other hinline⟩
  · intro node result h
    have hinline := (Node.unfolds_of_dereference h).isInline
    exact ⟨hinline, Node.dereference_of_isInline other hinline⟩
  · intro ref id result h
    have hinline := NodeRef.isInline_of_dereference h
    exact ⟨hinline, NodeRef.dereference_of_isInline other hinline⟩
  · intro job result h
    rw [Job.dereference, Asked.outcome_bind] at h
    obtain ⟨root, hroot, h⟩ := bind_eq_ok.1 h
    have hinline : result.IsInline := by
      rw [← pure_eq_ok.1 h]
      exact ⟨root, rfl, NodeRef.isInline_of_dereference hroot⟩
    exact ⟨hinline, Job.dereference_of_isInline other hinline⟩
  · rintro job settings error hinline herror node variant hcause
    have hnever := Job.lower_meetsNoReference hinline settings error herror
    rw [hcause] at hnever
    exact hnever trivial

end Dereference

/-! ## A stored disk -/

/-- A registry with one brick. -/
def Registry.ofDisk : Registry := .ofList [.volumeBrick 1]

namespace Component

/-- A graph with a reference to the brick. -/
def diskByReference : Component :=
  volumeGraph 2 ["disk"] []
    ⟨[⟨"one", .latest (.repeating 1)⟩], [], [⟨"disk", ⟨"one", "in"⟩⟩], []⟩

/-- With the brick in the place of the reference the graph is done. -/
theorem diskByReference_settles :
    ∃ result, (diskByReference.dereference Registry.ofDisk.lookup).outcome = .ok result ∧
      ¬ diskByReference.IsInline ∧ result.IsInline ∧
      result.dereference Registry.empty.lookup = ⟨[], .ok result⟩ := by
  have hanswer : Registry.ofDisk.lookup.answer? (.latest (.repeating 1)) = some (volumeBrick 1) := by
    rw [Registry.answer?_lookup]
    rfl
  have hunfolds : diskByReference.Unfolds Registry.ofDisk.lookup.answer?
      (diskByReference.withChildren [⟨"one", .inline (volumeBrick 1)⟩]) :=
    .intro (.cons (.reference rfl hanswer (.intro .nil)) .nil)
  have hok := dereference_eq_ok.2 hunfolds
  have hopen : ¬ diskByReference.IsInline := by
    rw [← isDereferenced_iff_isInline]
    decide
  obtain ⟨-, hcomponents, -⟩ :=
    Lookup.dereference_fixpoint Registry.ofDisk.lookup Registry.empty.lookup
  obtain ⟨hinline, hagain⟩ := hcomponents diskByReference _ hok
  exact ⟨_, hok, hopen, hinline, hagain⟩

end Component

end Pipeline
