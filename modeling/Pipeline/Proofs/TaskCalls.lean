/-
Task calls: which templates the tasks of a template call.

Wiring a task gives it arguments and possibly a list to fan out over. It leaves
alone what the task calls and when (`SameCall`), so the calls of a template can
be read off before any wiring: they are the components at the nodes, in the order
of the nodes (`Component.template_calls`). The name of a template is the text of
the identifier of its component, whatever the component is.
-/
import Pipeline.Proofs.TemplateParts

set_option autoImplicit false

namespace Pipeline

open Manifest (Task Template)

/-! ## Wiring -/

namespace Manifest.Task

/-- Two tasks that differ in what they pass on, and not in what they call and when. -/
structure SameCall (before after : Task) : Prop where
  name : after.name = before.name
  template : after.template = before.template
  dependencies : after.dependencies = before.dependencies
  runsWhen : after.runsWhen = before.runsWhen

namespace SameCall

theorem refl (task : Task) : SameCall task task := ⟨rfl, rfl, rfl, rfl⟩

theorem trans {first second third : Task} (hfirst : SameCall first second)
    (hsecond : SameCall second third) : SameCall first third where
  name := hsecond.name.trans hfirst.name
  template := hsecond.template.trans hfirst.template
  dependencies := hsecond.dependencies.trans hfirst.dependencies
  runsWhen := hsecond.runsWhen.trans hfirst.runsWhen

theorem passParameter (task : Task) (target value : String) :
    SameCall task (task.passParameter target value) := ⟨rfl, rfl, rfl, rfl⟩

theorem passArtifact (task : Task) (target reference : String) :
    SameCall task (task.passArtifact target reference) := ⟨rfl, rfl, rfl, rfl⟩

theorem fanOut {task after : Task} {target items : String}
    (h : task.fanOut target items = .ok after) : SameCall task after := by
  unfold Task.fanOut at h
  by_cases hconflict : task.withParam.any (· ≠ items)
  · rw [if_pos hconflict] at h
    cases h
  · rw [if_neg hconflict] at h
    cases h
    exact ⟨rfl, rfl, rfl, rfl⟩

theorem wireInput {parent child : Component} {task after : Task} {mapping : InputMapping}
    (h : task.wireInput parent child mapping = .ok after) : SameCall task after := by
  obtain ⟨outer, -, h⟩ := bind_eq_ok.1 h
  obtain ⟨inner, -, h⟩ := bind_eq_ok.1 h
  cases htype : outer.type <;> rw [htype] at h
  case parameter =>
    cases h
    exact passParameter _ _ _
  case parameterArray => exact fanOut h
  case artifact =>
    cases h
    exact passArtifact _ _ _
  case volume =>
    cases h
    exact refl _
  case envSecret =>
    cases h
    exact refl _

theorem wireEdge {graph : Graph} {child : Component} {task after : Task} {edge : Edge}
    (h : task.wireEdge graph child edge = .ok after) : SameCall task after := by
  obtain ⟨sibling, -, h⟩ := bind_eq_ok.1 h
  obtain ⟨output, -, h⟩ := bind_eq_ok.1 h
  obtain ⟨inner, -, h⟩ := bind_eq_ok.1 h
  cases htype : output.type <;> rw [htype] at h
  case parameter =>
    cases h
    exact passParameter _ _ _
  case parameterArray =>
    -- The task fans out over the list of a brick, and is given that of a composite as it is.
    cases hsibling : sibling.implementation <;> rw [hsibling] at h
    case brick => exact fanOut h
    all_goals
      cases h
      exact passParameter _ _ _
  case artifact =>
    cases h
    exact passArtifact _ _ _
  case volume =>
    cases h
    exact refl _
  case envSecret => cases h

theorem wireInputs {parent child : Component} {task after : Task} {mappings : List InputMapping}
    (h : task.wireInputs parent child mappings = .ok after) : SameCall task after :=
  foldlM_invariant (fun _ _ _ _ hsame hstep => hsame.trans (wireInput hstep)) (refl task) h

theorem wireEdges {graph : Graph} {child : Component} {task after : Task} {edges : List Edge}
    (h : task.wireEdges graph child edges = .ok after) : SameCall task after :=
  foldlM_invariant (fun _ _ _ _ hsame hstep => hsame.trans (wireEdge hstep)) (refl task) h

end SameCall

end Manifest.Task

/-! ## Calls -/

/-- The names of the templates that the tasks of a template call, in order. -/
def Manifest.Template.calls (template : Template) : List String :=
  match template.dag with
  | some dag => dag.tasks.map Task.template
  | none => []

/-- The name of the template that the task of a node calls. -/
def Node.callee? (node : Node) : Option String := node.component?.map fun child => child.id.text

theorem Node.callee?_of_component {node : Node} {child : Component}
    (h : node.component? = some child) : node.callee? = some child.id.text := by
  rw [Node.callee?, h]
  rfl

namespace Graph

theorem callee?_of_task {graph : Graph} {component : Component} {node : Node} {task : Task}
    (h : graph.task component node = .ok task) : node.callee? = some task.template := by
  obtain ⟨child, mapped, hchild, hmapped, h⟩ := task_eq_ok.1 h
  -- The call was fixed before the task was given its arguments.
  have hsame := (Task.SameCall.wireInputs hmapped).trans (Task.SameCall.wireEdges h)
  rw [Node.callee?_of_component hchild, hsame.template]
  rfl

theorem template_calls {graph : Graph} {component : Component} {template : Template}
    (h : graph.template component = .ok template) :
    template.name = component.id.text ∧ graph.nodes.map Node.callee? = template.calls.map some := by
  obtain ⟨tasks, outputs, htasks, -, rfl⟩ := template_eq_ok.1 h
  refine ⟨rfl, ?_⟩
  show graph.nodes.map Node.callee? = (tasks.map Task.template).map some
  rw [List.map_map]
  exact map_eq_of_mapM (fun _ _ htask => callee?_of_task htask) htasks

end Graph

namespace MapBlock

theorem template_calls {map : MapBlock} {component : Component} {settings : Settings}
    {template : Template} (h : map.template component settings = .ok template) :
    template.name = component.id.text ∧ [map.node].map Node.callee? = template.calls.map some := by
  obtain ⟨child, task, outputs, hchild, htask, -, rfl⟩ := template_eq_ok.1 h
  refine ⟨rfl, ?_⟩
  show [map.node.callee?] = [some task.template]
  rw [Node.callee?_of_component hchild, (Task.SameCall.wireInputs htask).template]
  rfl

end MapBlock

namespace Conditional

/-- The second branch, if there is one, is the component that was looked up for it. -/
theorem callee?_of_componentFalse {conditional : Conditional} {whenTrue : Component}
    {whenFalse : Option Component} (h : conditional.componentFalse whenTrue = .ok whenFalse) :
    conditional.nodeFalse.toList.map Node.callee? =
      whenFalse.toList.map fun component => some component.id.text := by
  rcases componentFalse_eq_ok.1 h with
    ⟨hnode, rfl⟩ | ⟨nodeFalse, component, hnode, hcomponent, -, -, rfl⟩
  · rw [hnode]
    rfl
  · rw [hnode]
    show [nodeFalse.callee?] = [some component.id.text]
    rw [Node.callee?_of_component hcomponent]

theorem template_calls {conditional : Conditional} {component : Component} {settings : Settings}
    {template : Template} (h : conditional.template component settings = .ok template) :
    template.name = component.id.text ∧
      conditional.branches.map Node.callee? = template.calls.map some := by
  obtain ⟨whenTrue, whenFalse, guardText, wired, outputs, -, hwhenTrue, hwhenFalse, -, hwired, -,
    rfl⟩ := template_eq_ok.1 h
  refine ⟨rfl, ?_⟩
  -- Both tasks come from one that was wired for the first branch.
  have htemplate : wired.template = whenTrue.id.text := (Task.SameCall.wireInputs hwired).template
  show conditional.nodeTrue.callee? :: conditional.nodeFalse.toList.map Node.callee? =
    ((tasks settings guardText wired whenFalse).map Task.template).map some
  rw [Node.callee?_of_component hwhenTrue, callee?_of_componentFalse hwhenFalse, tasks,
    List.map_cons, List.map_cons, htemplate]
  cases whenFalse <;> rfl

end Conditional

namespace Component

/-- **The template of a component** has the text of the identifier as its name, and calls the
components at the nodes, in order. -/
theorem template_calls {component : Component} {settings : Settings} {scopes : Scopes}
    {template : Template} (h : component.template settings scopes = .ok template) :
    template.name = component.id.text ∧
      component.children.map Node.callee? = template.calls.map some := by
  unfold Component.template at h
  unfold children
  cases himplementation : component.implementation <;> rw [himplementation] at h
  case brick block =>
    obtain ⟨rendered, vars, outputs, -, -, -, rfl⟩ := Brick.template_eq_ok.1 h
    exact ⟨rfl, rfl⟩
  case graph block => exact block.template_calls h
  case map block => exact block.template_calls h
  case conditional block => exact block.template_calls h
  case any => cases h

theorem template_name {component : Component} {settings : Settings} {scopes : Scopes}
    {template : Template} (h : component.template settings scopes = .ok template) :
    template.name = component.id.text :=
  (template_calls h).1

/-- A template calls the templates of the children of its component, and no other ones. -/
theorem mem_calls_iff {component : Component} {settings : Settings} {scopes : Scopes}
    {template : Template} (h : component.template settings scopes = .ok template) {name : String} :
    name ∈ template.calls ↔ ∃ child, component.HasChild child ∧ child.id.text = name := by
  have hmem : name ∈ template.calls ↔ some name ∈ component.children.map Node.callee? := by
    rw [(template_calls h).2]
    simp
  rw [hmem, List.mem_map]
  constructor
  · rintro ⟨node, hnode, hcallee⟩
    obtain ⟨child, hchild, hname⟩ := Option.map_eq_some_iff.1 hcallee
    exact ⟨child, ⟨node, hnode, hchild⟩, hname⟩
  · rintro ⟨child, ⟨node, hnode, hchild⟩, hname⟩
    exact ⟨node, hnode, Option.map_eq_some_iff.2 ⟨child, hchild, hname⟩⟩

end Component

end Pipeline
