/-
Argument sources: every value that a task is given is there to be given.

A task is given values by placeholder. The placeholder is written down when the task
is wired, by the type of the port at which a connection begins, and what it names is
declared elsewhere: an input by the template of the composite itself, an output by the
template that another task calls. That both agree is due to the ports. The interface of
a template is that of its component (`Component.names_of_template`), the template that
a task calls has the interface of the component at its node, whatever place it was made
for (`Component.exists_interface`), and a task waits for the nodes from which it is
delivered something.

An output is taken only along an edge, so only graphs come into question there, and in a
graph the task of a node is found by the identifier of the node.
-/
import Pipeline.Proofs.Deliveries
import Pipeline.Proofs.TaskOrder

set_option autoImplicit false

namespace Pipeline

open Manifest (Artifact Dag Parameter Task Template)

/-! ## What is meant -/

/-- There are tasks of the name, and what each of them calls is as required. -/
def Manifest.Dag.Runs (dag : Dag) (templates : List Template) (name : String)
    (required : Template → Prop) : Prop :=
  (∃ task ∈ dag.tasks, task.name = name) ∧
    ∀ task ∈ dag.tasks, task.name = name →
      ∃ callee, Template.ofName? templates task.template = some callee ∧ required callee

/-- A task finds the value on a channel. It is an input that the template of the task declares, or an
output that is declared by the template of another task, for which it waits. -/
def Origin.Stands (templates : List Template) (template : Template) (dag : Dag) (task : Task)
    (channel : Channel) : Origin → Prop
  | .input port => port ∈ template.inputs.names channel
  | .output other port => other ∈ task.dependencies ∧
      dag.Runs templates other fun callee => port ∈ callee.outputs.names channel

/-- Every value that a task is given, and the list over which it fans out, is one that it finds. The
current element of a list is given to no task but one that fans out. -/
structure Manifest.Task.Grounded (templates : List Template) (template : Template) (dag : Dag)
    (task : Task) : Prop where
  parameters : ∀ parameter ∈ task.arguments.parameters,
    (parameter = .withValue parameter.name Placeholder.item ∧ task.withParam.isSome = true) ∨
      ∃ origin : Origin, origin.Stands templates template dag task .parameter ∧
        parameter = .withValue parameter.name (origin.placeholder .parameter)
  artifacts : ∀ artifact ∈ task.arguments.artifacts,
    ∃ origin : Origin, origin.Stands templates template dag task .artifact ∧
      artifact = .ofReference artifact.name (origin.placeholder .artifact)
  list : ∀ items, task.withParam = some items →
    ∃ origin : Origin, origin.Stands templates template dag task .parameter ∧
      items = origin.placeholder .parameter

/-! ## Tasks -/

/-- A task is grounded when it finds whatever is delivered to it. -/
theorem Component.RunsAt.grounded {component : Component} {claim : String × Node} {task : Task}
    {templates : List Template} {template : Template} {dag : Dag} (h : component.RunsAt claim task)
    (hstands : ∀ delivery ∈ component.deliveries claim.1,
      delivery.origin.Stands templates template dag task delivery.passing.channel) :
    task.Grounded templates template dag where
  parameters parameter hparameter := by
    rw [h.parameters] at hparameter
    obtain ⟨⟨passing, origin, target⟩, hdelivery, hgiven⟩ := List.mem_filterMap.1 hparameter
    have horigin := hstands _ hdelivery
    cases passing with
    | whole =>
      obtain rfl := Option.some.inj hgiven
      exact .inr ⟨origin, horigin, rfl⟩
    | each =>
      obtain rfl := Option.some.inj hgiven
      have hlist : task.withParam = some (origin.placeholder .parameter) :=
        (h.list _).2 (List.mem_filterMap.2 ⟨_, hdelivery, rfl⟩)
      exact .inl ⟨rfl, by rw [hlist]; rfl⟩
    | artifact => cases hgiven
  artifacts artifact hartifact := by
    rw [h.artifacts] at hartifact
    obtain ⟨⟨passing, origin, target⟩, hdelivery, hgiven⟩ := List.mem_filterMap.1 hartifact
    have horigin := hstands _ hdelivery
    cases passing with
    | artifact =>
      obtain rfl := Option.some.inj hgiven
      exact ⟨origin, horigin, rfl⟩
    | whole => cases hgiven
    | each => cases hgiven
  list items hitems := by
    obtain ⟨⟨passing, origin, target⟩, hdelivery, hlist⟩ :=
      List.mem_filterMap.1 ((h.list items).1 hitems)
    have horigin := hstands _ hdelivery
    cases passing with
    | each => exact ⟨origin, horigin, (Option.some.inj hlist).symm⟩
    | whole => cases hlist
    | artifact => cases hlist

/-! ## Graphs -/

namespace Graph

variable {graph : Graph} {dag : Dag} {templates : List Template}

/-- A node waits for those with an edge into it. -/
theorem mem_dependencies {source target : String} :
    source ∈ graph.dependencies target ↔
      ∃ edge ∈ graph.edges, edge.target.node = target ∧ edge.source.node = source := by
  rw [dependencies, (firstAppearances_foldl _).mem_iff, List.mem_map]
  simp only [incoming, List.mem_filter, decide_eq_true_eq, and_assoc]

/-- The tasks of the name of a node are the one that calls the component at the node. -/
theorem runs_of_node (hdistinct : (graph.nodes.map (·.id)).Nodup)
    (hruns : List.Forall₂ graph.RunsNode graph.nodes dag.tasks) {node : Node}
    (hnode : node ∈ graph.nodes) {child : Component} (hchild : node.component? = some child)
    {required : Template → Prop}
    (hcallee : ∃ callee, Template.ofName? templates child.id.text = some callee ∧ required callee) :
    dag.Runs templates node.id required := by
  refine ⟨?_, fun task htask hname => ?_⟩
  · obtain ⟨task, htask, hrun⟩ := exists_related hruns hnode
    exact ⟨task, htask, hrun.name⟩
  · obtain ⟨other, hother, hrun⟩ := exists_related hruns.flip htask
    have hid : other.id = node.id := hrun.name.symm.trans hname
    obtain rfl := List.inj_on_of_nodup_map hdistinct hother hnode hid
    obtain ⟨found, hfound, htemplate⟩ := hrun.template
    obtain rfl := Option.some.inj (hchild.symm.trans hfound)
    rw [htemplate]
    exact hcallee

end Graph

/-! ## Trees -/

namespace Component

/-- Edges lead through graphs only. -/
theorem exists_graph_of_edge {component : Component} {edge : Edge}
    (h : edge ∈ component.wiring.edges) :
    ∃ graph, component.implementation = .graph graph ∧ component.wiring = graph := by
  unfold wiring at h ⊢
  cases himplementation : component.implementation with
  | graph graph => exact ⟨graph, rfl, rfl⟩
  | brick _ | map _ | conditional _ | any =>
    rw [himplementation] at h
    exact absurd h List.not_mem_nil

variable {root : Component} {settings : Settings} {scopes : Scopes} {templates : List Template}

/-- A task finds what is delivered to it. -/
theorem stands_of_delivery (hids : root.FaithfulIds)
    (hok : root.templates settings scopes = .ok templates) {visit : Visit}
    (hreaches : Visit.Reaches ⟨root, scopes⟩ visit) {template : Template}
    (htemplate : visit.template settings = .ok template) {dag : Dag}
    (hdag : template.dag = some dag) {claim : String × Node} {task : Task}
    (hrun : visit.component.RunsAt claim task) {delivery : Delivery}
    (h : delivery ∈ visit.component.deliveries claim.1) :
    delivery.origin.Stands templates template dag task delivery.passing.channel := by
  have hvalid := hreaches.within.valid (valid_of_templates hok)
  rcases mem_deliveries.1 h with ⟨mapping, -, -, hdelivery⟩ | ⟨edge, hedge, htarget, hdelivery⟩
  -- The input is a port of the composite, which is declared by the template of the composite.
  · have hchannel := mapping.map_channel_delivery? visit.component
    rw [hdelivery] at hchannel
    rw [(InputMapping.ends_of_delivery hdelivery).1]
    show mapping.source ∈ template.inputs.names delivery.passing.channel
    rw [(names_of_template htemplate _).1]
    exact Port.mem_namesOn_of_channelOf? hchannel.symm
  -- The output is a port of another node, whose component is called by the task there.
  · obtain ⟨⟨sibling, hsibling⟩, horigin, -⟩ := Edge.ends_of_delivery hdelivery
    have hchannel := Edge.map_channel_delivery? hsibling
    rw [hdelivery] at hchannel
    obtain ⟨graph, hgraph, hwiring⟩ := exists_graph_of_edge hedge
    obtain ⟨node, hfind, hcomponent⟩ := Option.bind_eq_some_iff.1 hsibling
    have hnode : node ∈ visit.component.wiring.nodes := List.mem_of_find?_eq_some hfind
    have hid : node.id = edge.source.node := key_of_find? hfind
    obtain ⟨callee, hcallee, hnames⟩ :=
      exists_interface hids hok (hreaches.within.child (hasChild_of_node hnode hcomponent))
    rw [horigin]
    refine ⟨?_, ?_⟩
    · rw [hrun.dependencies]
      exact Graph.mem_dependencies.2 ⟨edge, hedge, htarget, rfl⟩
    · have hclosed := (validSelf hvalid).2.2.2
      rw [hgraph] at hclosed
      obtain ⟨own, hown, hruns⟩ := runBy_of_template hgraph htemplate
      obtain rfl := Option.some.inj (hown.symm.trans hdag)
      rw [hwiring] at hnode
      rw [← hid]
      refine Graph.runs_of_node (Graph.validateStructure_eq_ok.1 hclosed).1.distinct hruns hnode
        hcomponent ⟨callee, hcallee, ?_⟩
      rw [(hnames _).2]
      exact Port.mem_namesOn_of_channelOf? hchannel.symm

/-- **No argument dangles.** When a tree is lowered in which equal identifiers denote equal
components, every task of every template is grounded: its parameters, its artifacts and the list over
which it fans out are inputs that the template declares on the same channel, or outputs that another
task of the template puts out on that channel and that the task waits for. The one exception is the
current element of a list, which only a task that fans out is given. -/
theorem arguments_grounded (hids : root.FaithfulIds)
    (hok : root.templates settings scopes = .ok templates) :
    ∀ template ∈ templates, ∀ dag, template.dag = some dag → ∀ task ∈ dag.tasks,
      task.Grounded templates template dag := by
  intro template hmem dag hdag task htask
  obtain ⟨visit, hreaches, htemplate⟩ := exists_visit_of_mem hok hmem
  have hvalid := hreaches.within.valid (valid_of_templates hok)
  obtain ⟨claim, -, hrun⟩ :=
    exists_related (runsAt_of_template (wellWired hvalid) htemplate hdag).flip htask
  exact RunsAt.grounded hrun fun delivery hdelivery =>
    stands_of_delivery hids hok hreaches htemplate hdag hrun hdelivery

/-! ## A list that is made and then gone through -/

/-- A brick that makes a list out of a file. -/
def splitBrick : Component :=
  let brick : Brick := ⟨.ofImage "alpine", [.port "file"], [⟨"items", .file "/tmp/items"⟩]⟩
  { ofImplementation (.repeating 1) "split" (.brick brick) with
    inputs := [⟨"file", .artifact⟩]
    outputs := [⟨"items", .parameterArray⟩] }

/-- A brick that takes one element and the file. -/
def workBrick : Component :=
  let brick : Brick := ⟨.ofImage "alpine", [.port "item", .port "file"], []⟩
  { ofImplementation (.repeating 2) "work" (.brick brick) with
    inputs := [⟨"item", .parameter⟩, ⟨"file", .artifact⟩] }

/-- The second brick runs for every element of the list that the first one makes. -/
def splitGraph : Component :=
  let graph : Graph :=
    ⟨[⟨"split", .inline splitBrick⟩, ⟨"work", .inline workBrick⟩],
      [⟨⟨"split", "items"⟩, ⟨"work", "item"⟩⟩],
      [⟨"file", ⟨"split", "file"⟩⟩, ⟨"file", ⟨"work", "file"⟩⟩], []⟩
  { ofImplementation (.repeating 3) "graph" (.graph graph) with
    inputs := [⟨"file", .artifact⟩] }

theorem splitGraph_faithfulIds : splitGraph.FaithfulIds := by
  refine .of_members (List.mem_cons_self (l := [splitBrick, workBrick])) ?_ (by decide)
  show [splitBrick, workBrick] ⊆ [splitGraph, splitBrick, workBrick]
  exact List.subset_cons_self _ _

/-- The task of the second brick is given the current element of a list that the first one puts out,
and the file. -/
theorem splitGraph_grounded :
    ∃ templates, splitGraph.templates .default .empty = .ok templates ∧
      ∃ template ∈ templates, ∃ dag, template.dag = some dag ∧ ∃ task ∈ dag.tasks,
        task.arguments =
          ⟨[.withValue "item" Placeholder.item],
            [.ofReference "file" (Placeholder.inputArtifact "file")]⟩ ∧
        task.withParam = some (Placeholder.taskParameter "split" "items") ∧
        task.dependencies = ["split"] ∧ task.Grounded templates template dag := by
  have hok : ∃ templates, splitGraph.templates .default .empty = .ok templates ∧
      ∃ template ∈ templates, ∃ dag ∈ template.dag, ∃ task ∈ dag.tasks,
        task.arguments =
          ⟨[.withValue "item" Placeholder.item],
            [.ofReference "file" (Placeholder.inputArtifact "file")]⟩ ∧
        task.withParam = some (Placeholder.taskParameter "split" "items") ∧
        task.dependencies = ["split"] := by
    rw [← exists_ok_iff]
    decide
  obtain ⟨templates, hok, template, hmem, dag, hdag, task, htask, hgiven, hlist, hwaits⟩ := hok
  exact ⟨templates, hok, template, hmem, dag, hdag, task, htask, hgiven, hlist, hwaits,
    arguments_grounded splitGraph_faithfulIds hok template hmem dag hdag task htask⟩

end Component

end Pipeline
