/-
Template parts: what has to succeed for a template, and what the template then is.

Each function that makes a template is a chain of steps. For each of them there is one
statement here that takes the chain apart: it succeeds exactly when these steps do,
with this result. Whatever is said about templates elsewhere starts from there, so
that a step which is added or exchanged is added or exchanged here first.
-/
import Pipeline.Proofs.Composite

set_option autoImplicit false

namespace Pipeline

open Manifest (EnvVar Task Template)

/-! ## Ports -/

namespace Component

variable {component : Component} {name : String} {port : Port}

/-- An input is found when one of its name is declared. -/
theorem input_eq_ok : component.input name = .ok port ↔ component.input? name = some port := by
  rw [input]
  cases component.input? name <;> simp [fault]

/-- An output is found when one of its name is declared. -/
theorem output_eq_ok : component.output name = .ok port ↔ component.output? name = some port := by
  rw [output]
  cases component.output? name <;> simp [fault]

end Component

/-! ## Nodes -/

/-- A scope has a component under an identifier when the first node of it is inline. -/
theorem Graph.component_eq_ok {graph : Graph} {id : String} {child : Component} :
    graph.component id = .ok child ↔
      ∃ node, graph.node? id = some node ∧ node.component? = some child := by
  rw [Graph.component]
  cases graph.node? id with
  | none => simp [fault]
  | some node => simp [Node.component_eq_ok]

/-! ## Bricks -/

/-- A brick has a template when its arguments, its secrets and its outputs are all there. -/
theorem Brick.template_eq_ok {brick : Brick} {component : Component} {root : String}
    {secrets : SecretScope} {volumes : VolumeScope} {template : Template} :
    brick.template component secrets volumes root = .ok template ↔
      ∃ rendered vars outputs,
        brick.args.mapM (fun argument : Argument => argument.render component volumes) =
          .ok rendered ∧
        secrets.variables component.inputs = .ok vars ∧
        brick.outputInterface component.outputs = .ok outputs ∧
        template = .ofContainer component.id.text (component.inputInterface (some root)) outputs
          { image := brick.container.image
            command := brick.container.command
            args := rendered.filterMap RenderedArgument.text?
            workingDir := brick.container.workingDir
            env := (brick.container.env.entries.map fun (name, value) =>
              EnvVar.literal name value) ++ vars
            volumeMounts := rendered.filterMap RenderedArgument.mount? } := by
  constructor
  · intro h
    obtain ⟨rendered, hrendered, h⟩ := bind_eq_ok.1 h
    obtain ⟨vars, hvars, h⟩ := bind_eq_ok.1 h
    obtain ⟨outputs, houtputs, h⟩ := bind_eq_ok.1 h
    exact ⟨rendered, vars, outputs, hrendered, hvars, houtputs, (pure_eq_ok.1 h).symm⟩
  · rintro ⟨rendered, vars, outputs, hrendered, hvars, houtputs, rfl⟩
    refine bind_eq_ok.2 ⟨rendered, hrendered, ?_⟩
    refine bind_eq_ok.2 ⟨vars, hvars, ?_⟩
    exact bind_eq_ok.2 ⟨outputs, houtputs, rfl⟩

/-! ## Graphs -/

namespace Graph

variable {graph : Graph} {component : Component}

/-- A node has a task when it is inline and its mappings and edges can be wired. -/
theorem task_eq_ok {node : Node} {task : Task} :
    graph.task component node = .ok task ↔
      ∃ child mapped, node.component? = some child ∧
        Task.wireInputs component child
          { Task.calling node.id child.id.text with dependencies := graph.dependencies node.id }
          (graph.inputMappings.filter (·.target.node = node.id)) = .ok mapped ∧
        Task.wireEdges graph child mapped (graph.incoming node.id) = .ok task := by
  constructor
  · intro h
    obtain ⟨child, hchild, h⟩ := bind_eq_ok.1 h
    obtain ⟨mapped, hmapped, h⟩ := bind_eq_ok.1 h
    exact ⟨child, mapped, Node.component_eq_ok.1 hchild, hmapped, h⟩
  · rintro ⟨child, mapped, hchild, hmapped, h⟩
    exact bind_eq_ok.2 ⟨child, Node.component_eq_ok.2 hchild, bind_eq_ok.2 ⟨mapped, hmapped, h⟩⟩

/-- A graph has a template when its nodes have tasks and its outputs can be connected. -/
theorem template_eq_ok {template : Template} :
    graph.template component = .ok template ↔
      ∃ tasks outputs, graph.nodes.mapM (graph.task component) = .ok tasks ∧
        component.connectOutputs
          (fun mapping => .ofTask mapping.source.node mapping.source.port) graph.outputMappings =
          .ok outputs ∧
        template = .ofTasks component.id.text (component.inputInterface none) outputs tasks := by
  constructor
  · intro h
    obtain ⟨tasks, htasks, h⟩ := bind_eq_ok.1 h
    obtain ⟨outputs, houtputs, h⟩ := bind_eq_ok.1 h
    exact ⟨tasks, outputs, htasks, houtputs, (pure_eq_ok.1 h).symm⟩
  · rintro ⟨tasks, outputs, htasks, houtputs, rfl⟩
    exact bind_eq_ok.2 ⟨tasks, htasks, bind_eq_ok.2 ⟨outputs, houtputs, rfl⟩⟩

end Graph

/-! ## Maps -/

/-- A map has a template when its node is inline, its mappings can be wired and its outputs can be
connected. -/
theorem MapBlock.template_eq_ok {map : MapBlock} {component : Component} {settings : Settings}
    {template : Template} :
    map.template component settings = .ok template ↔
      ∃ child task outputs, map.node.component? = some child ∧
        Task.wireInputs component child (.calling settings.mapTaskName child.id.text)
          map.inputMappings = .ok task ∧
        component.connectOutputs
          (fun mapping => .ofTask settings.mapTaskName mapping.source.port) map.outputMappings =
          .ok outputs ∧
        template = .ofTasks component.id.text (component.inputInterface none) outputs [task] := by
  constructor
  · intro h
    obtain ⟨task, htask, h⟩ := bind_eq_ok.1 h
    obtain ⟨child, hchild, htask⟩ := bind_eq_ok.1 htask
    obtain ⟨outputs, houtputs, h⟩ := bind_eq_ok.1 h
    exact ⟨child, task, outputs, Node.component_eq_ok.1 hchild, htask, houtputs,
      (pure_eq_ok.1 h).symm⟩
  · rintro ⟨child, task, outputs, hchild, htask, houtputs, rfl⟩
    have hmade : map.task component settings = .ok task :=
      bind_eq_ok.2 ⟨child, Node.component_eq_ok.2 hchild, htask⟩
    exact bind_eq_ok.2 ⟨task, hmade, bind_eq_ok.2 ⟨outputs, houtputs, rfl⟩⟩

/-! ## Conditionals -/

namespace Conditional

variable {conditional : Conditional}

theorem checkSymmetry_eq_ok {nodeFalse : Node} {whenTrue whenFalse : Component} :
    conditional.checkSymmetry nodeFalse whenTrue whenFalse = .ok () ↔
      Port.sameSet whenTrue.inputs whenFalse.inputs = true ∧
        Port.sameSet whenTrue.outputs whenFalse.outputs = true := by
  rw [checkSymmetry]
  cases Port.sameSet whenTrue.inputs whenFalse.inputs <;>
    cases Port.sameSet whenTrue.outputs whenFalse.outputs <;> simp [fault]

/-- The component of the second branch is found when there is no such branch, or when it is inline
and has the ports of the first one. -/
theorem componentFalse_eq_ok {whenTrue : Component} {found : Option Component} :
    conditional.componentFalse whenTrue = .ok found ↔
      (conditional.nodeFalse = none ∧ found = none) ∨
        ∃ nodeFalse whenFalse, conditional.nodeFalse = some nodeFalse ∧
          nodeFalse.component? = some whenFalse ∧
          Port.sameSet whenTrue.inputs whenFalse.inputs = true ∧
          Port.sameSet whenTrue.outputs whenFalse.outputs = true ∧ found = some whenFalse := by
  unfold componentFalse
  cases hnode : conditional.nodeFalse with
  | none =>
    rw [Except.ok.injEq, eq_comm]
    simp
  | some nodeFalse =>
    constructor
    · intro h
      obtain ⟨whenFalse, hwhenFalse, h⟩ := bind_eq_ok.1 h
      obtain ⟨⟨⟩, hsymmetry, h⟩ := bind_eq_ok.1 h
      obtain ⟨hinputs, houtputs⟩ := checkSymmetry_eq_ok.1 hsymmetry
      exact .inr ⟨nodeFalse, whenFalse, rfl, Node.component_eq_ok.1 hwhenFalse, hinputs, houtputs,
        (pure_eq_ok.1 h).symm⟩
    · rintro (⟨hnone, -⟩ | ⟨_, whenFalse, hsome, hwhenFalse, hinputs, houtputs, rfl⟩)
      · cases hnone
      · obtain rfl := Option.some.inj hsome
        refine bind_eq_ok.2 ⟨whenFalse, Node.component_eq_ok.2 hwhenFalse, ?_⟩
        exact bind_eq_ok.2 ⟨(), checkSymmetry_eq_ok.2 ⟨hinputs, houtputs⟩, rfl⟩

/-- A conditional has a template when its mappings pass their check, its branches are inline and
alike, its guard can be written, and its mappings can be wired and connected. -/
theorem template_eq_ok {component : Component} {settings : Settings} {template : Template} :
    conditional.template component settings = .ok template ↔
      ∃ whenTrue whenFalse guardText wired outputs,
        conditional.checkMappings = .ok () ∧
        conditional.nodeTrue.component? = some whenTrue ∧
        conditional.componentFalse whenTrue = .ok whenFalse ∧
        conditional.condition.guardText component.inputs = .ok guardText ∧
        Task.wireInputs component whenTrue (.calling settings.trueTaskName whenTrue.id.text)
          (conditional.inputMappings.filter (·.target.node = conditional.nodeTrue.id)) =
          .ok wired ∧
        conditional.outputs component settings.trueTaskName settings.falseTaskName = .ok outputs ∧
        template = .ofTasks component.id.text (component.inputInterface none) outputs
          (tasks settings guardText wired whenFalse) := by
  constructor
  · intro h
    obtain ⟨⟨⟩, hmappings, h⟩ := bind_eq_ok.1 h
    obtain ⟨whenTrue, hwhenTrue, h⟩ := bind_eq_ok.1 h
    obtain ⟨whenFalse, hwhenFalse, h⟩ := bind_eq_ok.1 h
    obtain ⟨guardText, hguard, h⟩ := bind_eq_ok.1 h
    obtain ⟨wired, hwired, h⟩ := bind_eq_ok.1 h
    obtain ⟨outputs, houtputs, h⟩ := bind_eq_ok.1 h
    exact ⟨whenTrue, whenFalse, guardText, wired, outputs, hmappings,
      Node.component_eq_ok.1 hwhenTrue, hwhenFalse, hguard, hwired, houtputs,
      (pure_eq_ok.1 h).symm⟩
  · rintro ⟨whenTrue, whenFalse, guardText, wired, outputs, hmappings, hwhenTrue, hwhenFalse,
      hguard, hwired, houtputs, rfl⟩
    refine bind_eq_ok.2 ⟨(), hmappings, ?_⟩
    refine bind_eq_ok.2 ⟨whenTrue, Node.component_eq_ok.2 hwhenTrue, ?_⟩
    refine bind_eq_ok.2 ⟨whenFalse, hwhenFalse, ?_⟩
    refine bind_eq_ok.2 ⟨guardText, hguard, ?_⟩
    refine bind_eq_ok.2 ⟨wired, hwired, ?_⟩
    exact bind_eq_ok.2 ⟨outputs, houtputs, rfl⟩

end Conditional

end Pipeline
