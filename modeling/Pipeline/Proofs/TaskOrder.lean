/-
Task order: which tasks a composite runs, and which of them wait for which.

A graph runs one task for each node, in order, and the task waits for the nodes from
which an edge leads to it, each of them once. This is fixed before the task is wired,
and wiring leaves it alone (`Task.SameCall`). Maps and conditionals run tasks that
wait for nothing, under names that the settings choose; that the two names of a
conditional differ is owed to the check of the settings.

A template of tasks is well formed when its names are distinct, what is waited for is
another task in it, and no task waits for itself in the end. For a graph this is what
validation has found out about its nodes and edges, in other words: waiting is going
back along an edge.
-/
import Pipeline.Proofs.Acyclicity
import Pipeline.Proofs.CallGraph

set_option autoImplicit false

namespace Pipeline

open Manifest (Dag Task Template)

/-! ## What is meant -/

namespace Manifest.Dag

/-- The task of the one name waits for the other name. -/
def Awaits (dag : Dag) (later earlier : String) : Prop :=
  ∃ task ∈ dag.tasks, task.name = later ∧ earlier ∈ task.dependencies

/-- The tasks can be told apart by their names, and there is an order in which they can run. -/
structure WellFormed (dag : Dag) : Prop where
  distinct : (dag.tasks.map Task.name).Nodup
  closed : ∀ task ∈ dag.tasks, ∀ name ∈ task.dependencies,
    ∃ other ∈ dag.tasks, other.name = name ∧ other.name ≠ task.name
  acyclic : ∀ name, ¬ Relation.TransGen dag.Awaits name name

end Manifest.Dag

/-- The names of a list, each once, in the order in which they first appear. -/
structure FirstAppearances (names distinct : List String) : Prop where
  mem_iff : ∀ name, name ∈ distinct ↔ name ∈ names
  ordered : distinct.Pairwise fun earlier later => names.idxOf earlier < names.idxOf later

/-- The task of a node has its name, calls the component at it, and waits for the nodes at the
beginnings of the edges into it. -/
structure Graph.RunsNode (graph : Graph) (node : Node) (task : Task) : Prop where
  name : task.name = node.id
  template : ∃ child, node.component? = some child ∧ task.template = child.id.text
  dependencies : FirstAppearances
    ((graph.edges.filter (·.target.node = node.id)).map (·.source.node)) task.dependencies

/-- The template runs a task for each node of the graph, in order. -/
def Graph.RunBy (graph : Graph) (template : Template) : Prop :=
  ∃ dag, template.dag = some dag ∧ List.Forall₂ graph.RunsNode graph.nodes dag.tasks

/-! ## Each name once -/

/-- To append every name that is not there yet keeps first appearances. -/
theorem firstAppearances_foldl (names : List String) :
    FirstAppearances names
      (names.foldl (fun seen name => if name ∈ seen then seen else seen ++ [name]) []) := by
  induction names using List.reverseRecOn with
  | nil => exact ⟨fun _ => Iff.rfl, .nil⟩
  | append_singleton names last ih =>
    rw [List.foldl_append, List.foldl_cons, List.foldl_nil]
    generalize names.foldl (fun seen name => if name ∈ seen then seen else seen ++ [name]) [] =
      seen at ih ⊢
    -- Names that were there keep their places.
    have hplace : ∀ name ∈ seen, (names ++ [last]).idxOf name = names.idxOf name :=
      fun name hname => List.idxOf_append_of_mem ((ih.mem_iff name).1 hname)
    have hordered : seen.Pairwise fun earlier later =>
        (names ++ [last]).idxOf earlier < (names ++ [last]).idxOf later := by
      refine ih.ordered.imp_of_mem fun {earlier later} hearlier hlater hlt => ?_
      rwa [hplace earlier hearlier, hplace later hlater]
    by_cases hlast : last ∈ seen
    · rw [if_pos hlast]
      refine ⟨fun name => ?_, hordered⟩
      rw [List.mem_append, List.mem_singleton, ih.mem_iff]
      refine ⟨.inl, ?_⟩
      rintro (hname | rfl)
      · exact hname
      · exact (ih.mem_iff name).1 hlast
    · rw [if_neg hlast]
      refine ⟨fun name => ?_, List.pairwise_append.2 ⟨hordered, List.pairwise_singleton _ _, ?_⟩⟩
      · rw [List.mem_append, List.mem_append, ih.mem_iff]
      · intro earlier hearlier later hlater
        have hnames := (ih.mem_iff earlier).1 hearlier
        have hnew : last ∉ names := fun hmem => hlast ((ih.mem_iff last).2 hmem)
        rw [List.mem_singleton.1 hlater, hplace earlier hearlier,
          List.idxOf_append_of_notMem hnew, List.idxOf_cons_self, Nat.add_zero]
        exact List.idxOf_lt_length_of_mem hnames

/-! ## Graphs -/

namespace Graph

variable {graph : Graph} {component : Component} {template : Template}

theorem runsNode_of_task {node : Node} {task : Task}
    (h : graph.task component node = .ok task) : graph.RunsNode node task := by
  obtain ⟨child, mapped, hchild, hmapped, h⟩ := task_eq_ok.1 h
  have hsame := (Task.SameCall.wireInputs hmapped).trans (Task.SameCall.wireEdges h)
  refine ⟨hsame.name, ⟨child, hchild, hsame.template⟩, ?_⟩
  rw [hsame.dependencies]
  exact firstAppearances_foldl _

theorem runBy_of_template (h : graph.template component = .ok template) :
    graph.RunBy template := by
  obtain ⟨tasks, outputs, htasks, -, rfl⟩ := template_eq_ok.1 h
  exact ⟨⟨tasks⟩, rfl, (mapM_eq_ok.1 htasks).imp fun _ _ => runsNode_of_task⟩

theorem RunsNode.mem_dependencies {node : Node} {task : Task} (h : graph.RunsNode node task)
    {name : String} (hname : name ∈ task.dependencies) :
    ∃ edge ∈ graph.edges, edge.source.node = name ∧ edge.target.node = node.id := by
  obtain ⟨edge, hedge, rfl⟩ := List.mem_map.1 ((h.dependencies.mem_iff name).1 hname)
  rw [List.mem_filter, decide_eq_true_eq] at hedge
  exact ⟨edge, hedge.1, rfl, hedge.2⟩

variable {dag : Dag}

/-- Waiting is going back along an edge. -/
theorem precedes_of_awaits (h : List.Forall₂ graph.RunsNode graph.nodes dag.tasks)
    {later earlier : String} (hawaits : dag.Awaits later earlier) :
    graph.Precedes earlier later := by
  obtain ⟨task, htask, rfl, hearlier⟩ := hawaits
  obtain ⟨node, -, hruns⟩ := exists_related h.flip htask
  obtain ⟨edge, hedge, hsource, htarget⟩ := RunsNode.mem_dependencies hruns hearlier
  exact ⟨edge, hedge, hsource, htarget.trans hruns.name.symm⟩

/-- What validation finds out about nodes and edges holds for tasks and for waiting. -/
theorem wellFormed_of_runsNode (hclosed : graph.Closed) (hacyclic : graph.Acyclic)
    (h : List.Forall₂ graph.RunsNode graph.nodes dag.tasks) : dag.WellFormed := by
  have hcircle : ∀ name, ¬ Relation.TransGen dag.Awaits name name := by
    intro name hawaits
    have hback : ∀ later earlier, dag.Awaits later earlier →
        Function.swap graph.Precedes later earlier := fun _ _ => precedes_of_awaits h
    exact hacyclic name (Relation.transGen_swap.1 (hawaits.lift id hback))
  refine ⟨?_, fun task htask name hname => ?_, hcircle⟩
  · have hnames : graph.nodes.map (·.id) = dag.tasks.map Task.name :=
      map_eq_of_related h fun _ _ hruns => hruns.name.symm
    rw [← hnames]
    exact hclosed.distinct
  · obtain ⟨_, -, hruns⟩ := exists_related h.flip htask
    obtain ⟨edge, hedge, rfl, -⟩ := RunsNode.mem_dependencies hruns hname
    obtain ⟨node, hnode, hid⟩ := List.mem_map.1 (hclosed.sources edge hedge)
    obtain ⟨other, hother, hrunsOther⟩ := exists_related h hnode
    have heq : other.name = edge.source.node := hrunsOther.name.trans hid
    refine ⟨other, hother, heq, fun hself => ?_⟩
    -- A task that waits for itself would be a circle of one edge.
    rw [heq] at hself
    exact hcircle task.name (.single ⟨task, htask, rfl, hself ▸ hname⟩)

end Graph

/-! ## Maps and conditionals -/

/-- Tasks that wait for nothing can run in any order. -/
theorem Manifest.Dag.WellFormed.of_independent {dag : Dag}
    (hdistinct : (dag.tasks.map Task.name).Nodup)
    (hindependent : ∀ task ∈ dag.tasks, task.dependencies = []) : dag.WellFormed := by
  have hwaits : ∀ task ∈ dag.tasks, ∀ name, name ∉ task.dependencies := by
    intro task htask name
    rw [hindependent task htask]
    exact List.not_mem_nil
  refine ⟨hdistinct, fun task htask name hname => absurd hname (hwaits task htask name),
    fun name hcircle => ?_⟩
  obtain ⟨_, ⟨task, htask, -, hname⟩, -⟩ := Relation.TransGen.head'_iff.1 hcircle
  exact hwaits task htask _ hname

/-- The names of the two tasks of a conditional differ in all settings that pass their check. -/
theorem Settings.branchNames_ne {draft settings : Settings} (h : draft.finish = .ok settings) :
    settings.trueTaskName ≠ settings.falseTaskName := by
  intro hsame
  unfold finish at h
  cases hfault : draft.fault? with
  | some cause =>
    rw [hfault] at h
    cases h
  | none =>
    rw [hfault] at h
    obtain rfl := Except.ok.inj h
    unfold fault? at hfault
    rw [if_pos hsame] at hfault
    split at hfault
    · cases hfault
    · split at hfault <;> cases hfault

theorem MapBlock.wellFormed_of_template {map : MapBlock} {component : Component}
    {settings : Settings} {template : Template} {dag : Dag}
    (h : map.template component settings = .ok template) (hdag : template.dag = some dag) :
    dag.WellFormed := by
  obtain ⟨child, task, outputs, -, hwired, -, rfl⟩ := template_eq_ok.1 h
  obtain rfl := Option.some.inj hdag
  refine .of_independent (List.nodup_singleton _) fun other hother => ?_
  rw [List.mem_singleton.1 hother]
  exact (Task.SameCall.wireInputs hwired).dependencies

theorem Conditional.wellFormed_of_template {conditional : Conditional} {component : Component}
    {settings : Settings} {template : Template} {dag : Dag}
    (hnames : settings.trueTaskName ≠ settings.falseTaskName)
    (h : conditional.template component settings = .ok template)
    (hdag : template.dag = some dag) : dag.WellFormed := by
  obtain ⟨whenTrue, whenFalse, guardText, wired, outputs, -, -, -, -, hwired, -, rfl⟩ :=
    template_eq_ok.1 h
  obtain rfl := Option.some.inj hdag
  have hsame := Task.SameCall.wireInputs hwired
  have hname : wired.name = settings.trueTaskName := hsame.name
  have hindependent : wired.dependencies = [] := hsame.dependencies
  -- The second task, if there is one, has another name and the same dependencies.
  cases whenFalse with
  | none => exact .of_independent (List.nodup_singleton _) (by simpa [tasks] using hindependent)
  | some child =>
    refine .of_independent ?_ (by simpa [tasks] using hindependent)
    simpa [tasks, hname] using hnames

/-! ## Components -/

namespace Component

variable {component : Component} {settings : Settings} {scopes : Scopes} {template : Template}

/-- The template of a valid component is well formed, if it runs tasks at all. -/
theorem wellFormed_of_template (hvalid : component.validate = .ok ())
    (hnames : settings.trueTaskName ≠ settings.falseTaskName)
    (h : component.template settings scopes = .ok template) {dag : Dag}
    (hdag : template.dag = some dag) : dag.WellFormed := by
  obtain ⟨-, -, -, hstructure⟩ := validSelf hvalid
  unfold Component.template at h
  cases himplementation : component.implementation <;> rw [himplementation] at h hstructure
  case brick block =>
    obtain ⟨_, _, _, -, -, -, rfl⟩ := Brick.template_eq_ok.1 h
    cases hdag
  case graph block =>
    obtain ⟨hclosed, hacyclic⟩ := Graph.validateStructure_eq_ok.1 hstructure
    obtain ⟨own, hown, hruns⟩ := block.runBy_of_template h
    obtain rfl := Option.some.inj (hown.symm.trans hdag)
    exact Graph.wellFormed_of_runsNode hclosed (hclosed.isAcyclic_iff.1 hacyclic) hruns
  case map block => exact block.wellFormed_of_template h hdag
  case conditional block => exact block.wellFormed_of_template hnames h hdag
  case any => cases h

theorem runBy_of_template {graph : Graph} (hgraph : component.implementation = .graph graph)
    (h : component.template settings scopes = .ok template) : graph.RunBy template := by
  rw [Component.template, hgraph] at h
  exact graph.runBy_of_template h

/-- **Tasks are run in an order that there is.** Under settings that pass their check, when a tree is
lowered,
* every graph in it is visited, and at each visit it has a template with one task for each of its
  nodes, in order, which has the name of the node, calls the component at it, and waits for the nodes
  at the beginnings of the edges into it, each once and in the order in which they first appear;
* every template of the result is the one of some visit, and if it runs tasks, their names are
  distinct, what they wait for are other tasks of the same template, and none of them waits for
  itself, be it directly or through others. -/
theorem tasks_wellFormed {draft : Settings} {templates : List Template}
    (hsettings : draft.finish = .ok settings)
    (hok : component.templates settings scopes = .ok templates) :
    (∀ inner, component.Within inner → ∀ graph, inner.implementation = .graph graph →
        (∃ narrowed, Visit.Reaches ⟨component, scopes⟩ ⟨inner, narrowed⟩) ∧
        ∀ narrowed, Visit.Reaches ⟨component, scopes⟩ ⟨inner, narrowed⟩ →
          ∃ template, inner.template settings narrowed = .ok template ∧ graph.RunBy template) ∧
      ∀ template ∈ templates, ∃ visit, Visit.Reaches ⟨component, scopes⟩ visit ∧
        visit.template settings = .ok template ∧
        (∀ graph, visit.component.implementation = .graph graph → graph.RunBy template) ∧
        ∀ dag, template.dag = some dag → dag.WellFormed := by
  have hvalid := valid_of_templates hok
  obtain ⟨repeats, hrepeats, -⟩ := templates_eq_ok hok
  refine ⟨fun inner hinner graph hgraph => ⟨Visit.exists_reaches hrepeats hinner, ?_⟩,
    fun template hmem => ?_⟩
  · intro narrowed hreaches
    obtain ⟨template, htemplate⟩ := hreaches.exists_template hrepeats
    exact ⟨template, htemplate, runBy_of_template hgraph htemplate⟩
  · obtain ⟨visit, hreaches, htemplate⟩ := exists_visit_of_mem hok hmem
    have hvalidVisit := hreaches.within.valid hvalid
    have hnames := Settings.branchNames_ne hsettings
    exact ⟨visit, hreaches, htemplate, fun graph hgraph => runBy_of_template hgraph htemplate,
      fun dag hdag => wellFormed_of_template hvalidVisit hnames htemplate hdag⟩

/-! ## A disk that is passed on twice -/

/-- Three bricks in a row, of which the last one has an edge from both others, and two of them from
the one before it. -/
def braidedDisk : Component :=
  let edge (source target : String) : Edge := ⟨⟨source, "out"⟩, ⟨target, "in"⟩⟩
  let nodes : List Node :=
    [⟨"a", .inline (volumeBrick 1)⟩, ⟨"b", .inline (volumeBrick 2)⟩,
      ⟨"c", .inline (volumeBrick 3)⟩]
  volumeGraph 4 ["disk"] []
    ⟨nodes, [edge "a" "b", edge "b" "c", edge "a" "c", edge "b" "c"],
      [⟨"disk", ⟨"a", "in"⟩⟩], []⟩

/-- The last task waits for each of the others once, and first for the one before it. -/
theorem braidedDisk_wellFormed :
    ∃ templates, braidedDisk.templates .default sharedDiskScopes = .ok templates ∧
      ∃ template ∈ templates, ∃ dag, template.dag = some dag ∧
        dag.tasks.map (fun task => (task.name, task.dependencies)) =
          [("a", []), ("b", ["a"]), ("c", ["b", "a"])] ∧
        dag.WellFormed := by
  have hok : ∃ templates, braidedDisk.templates .default sharedDiskScopes = .ok templates ∧
      ∃ template ∈ templates,
        template.dag.map (fun dag => dag.tasks.map fun task => (task.name, task.dependencies)) =
          some [("a", []), ("b", ["a"]), ("c", ["b", "a"])] := by
    rw [← exists_ok_iff]
    decide
  obtain ⟨templates, hok, template, hmem, htasks⟩ := hok
  obtain ⟨dag, hdag, htasks⟩ := Option.map_eq_some_iff.1 htasks
  obtain ⟨-, hall⟩ := tasks_wellFormed Settings.default_finish hok
  obtain ⟨visit, -, -, -, hwellFormed⟩ := hall template hmem
  exact ⟨templates, hok, template, hmem, dag, hdag, htasks, hwellFormed dag hdag⟩

end Component

end Pipeline
