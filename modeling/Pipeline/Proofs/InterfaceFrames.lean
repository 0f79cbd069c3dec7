/-
Interface frames: what the interface of a template depends on, and what it does not.

Which names a template declares is decided by the ports of its component alone, so a
component can be given another implementation, or other mappings, without any caller
noticing it by name. Where the values behind the names come from is decided, in a
composite, by one mapping for each output: the last one to it, and in a conditional the
last one that begins at the first branch (`Component.lastMapping?`). Every other mapping
to the same output is overridden, and a mapping to another output has no part in it: the
outputs of two composites that differ only in the mappings to other outputs declare the
same under the name (`Component.declared_of_sameMappings`).
-/
import Pipeline.Proofs.OutputSources

set_option autoImplicit false

namespace Pipeline

open Manifest (Arguments Artifact Parameter Template)

/-! ## The mapping that counts -/

/-- The mapping from which an output of a composite has its source. -/
def Implementation.lastMapping? : Implementation → String → Option OutputMapping
  | .graph block, name => OutputMapping.last? block.outputMappings name
  | .map block, name => OutputMapping.last? block.outputMappings name
  | .conditional block, name => OutputMapping.last? block.outputMappingsTrue name
  | .brick _, _ | .any, _ => none

/-- A composite with other output mappings; nothing else has any. -/
def Implementation.withOutputMappings (implementation : Implementation)
    (mappings : List OutputMapping) : Implementation :=
  match implementation with
  | .graph block => .graph { block with outputMappings := mappings }
  | .map block => .map { block with outputMappings := mappings }
  | .conditional block => .conditional { block with outputMappings := mappings }
  | .brick block => .brick block
  | .any => .any

namespace Component

/-- The mapping from which an output of a composite has its source. -/
def lastMapping? (component : Component) (name : String) : Option OutputMapping :=
  component.implementation.lastMapping? name

/-- The component with other output mappings. -/
def withOutputMappings (component : Component) (mappings : List OutputMapping) : Component :=
  { component with implementation := component.implementation.withOutputMappings mappings }

/-- The source that an output has from a mapping. -/
inductive MappingSource (component : Component) (settings : Settings) (mapping : OutputMapping) :
    OutputSource → Prop where
  | node {graph : Graph} (hgraph : component.implementation = .graph graph) :
      MappingSource component settings mapping (.ofTask mapping.source.node mapping.source.port)
  | map {map : MapBlock} (hmap : component.implementation = .map map) :
      MappingSource component settings mapping (.ofTask settings.mapTaskName mapping.source.port)
  | branches {conditional : Conditional} {expression : String}
      (hconditional : component.implementation = .conditional conditional)
      (hexpression : conditional.condition.expressionText component.inputs = .ok expression) :
      MappingSource component settings mapping
        (.ofBranches expression settings.trueTaskName mapping.source.port settings.falseTaskName
          (conditional.portFalse mapping))

/-- The outputs of the template of a composite are those of the component, each with the source from
the mapping that counts, and without a source where there is none. -/
def SourcedByLast (component : Component) (settings : Settings) (template : Template) : Prop :=
  ∃ source : OutputMapping → OutputSource,
    (∀ name mapping, component.lastMapping? name = some mapping →
      component.MappingSource settings mapping (source mapping)) ∧
    template.outputs = Port.sourced component.outputs fun name =>
      (component.lastMapping? name).map source

end Component

/-- What is declared under a name. -/
def Manifest.Arguments.declared (arguments : Arguments) (name : String) :
    Option Parameter × Option Artifact :=
  (arguments.parameter? name, arguments.artifact? name)

/-! ## Last mappings -/

namespace OutputMapping

variable {mappings others : List OutputMapping} {name : String}

/-- The last mapping to an output is the last one of those to it. -/
theorem last?_eq_getLast? (mappings : List OutputMapping) (name : String) :
    last? mappings name = (mappings.filter (·.target = name)).getLast? := by
  rw [last?, ← List.head?_filter, List.filter_reverse, List.head?_reverse]

theorem target_of_last? {mapping : OutputMapping} (h : last? mappings name = some mapping) :
    mapping.target = name := by
  have hfound := List.find?_some h
  exact of_decide_eq_true hfound

/-- Mappings to other outputs, and their order, have no part in it. -/
theorem last?_congr
    (hsame : mappings.filter (·.target = name) = others.filter (·.target = name)) :
    last? mappings name = last? others name := by
  rw [last?_eq_getLast?, last?_eq_getLast?, hsame]

/-- What agrees to an output still agrees after a part of the mappings was taken out. -/
theorem filter_target_filter (keep : OutputMapping → Bool)
    (hsame : mappings.filter (·.target = name) = others.filter (·.target = name)) :
    (mappings.filter keep).filter (·.target = name) =
      (others.filter keep).filter (·.target = name) := by
  rw [List.filter_comm, hsame, List.filter_comm]

end OutputMapping

namespace Conditional

variable {conditional : Conditional} {mappings : List OutputMapping}

/-- The port of the second branch is found among the mappings to the output at hand. -/
theorem portFalse_congr {mapping : OutputMapping}
    (hsame : mappings.filter (·.target = mapping.target) =
      conditional.outputMappings.filter (·.target = mapping.target)) :
    ({ conditional with outputMappings := mappings } : Conditional).portFalse mapping =
      conditional.portFalse mapping := by
  have hfind : ∀ (node : Node) (candidates : List OutputMapping),
      candidates.find? (fun other =>
          decide (other.source.node = node.id ∧ other.target = mapping.target)) =
        (candidates.filter (·.target = mapping.target)).find? (·.source.node = node.id) := by
    intro node candidates
    rw [List.find?_filter]
    congr 1
    funext other
    simp [Bool.and_comm]
  unfold portFalse
  simp only [hfind, hsame]

end Conditional

namespace Component

variable {component : Component} {settings : Settings} {scopes : Scopes} {template : Template}
variable {mappings : List OutputMapping} {mapping : OutputMapping} {name : String}
variable {source source' : OutputSource}

theorem target_of_lastMapping? (h : component.lastMapping? name = some mapping) :
    mapping.target = name := by
  unfold lastMapping? at h
  cases himplementation : component.implementation <;> rw [himplementation] at h
  case graph | map | conditional => exact OutputMapping.target_of_last? h
  case brick | any => cases h

/-- Mappings to other outputs do not change which mapping counts. -/
theorem lastMapping?_withOutputMappings
    (hsame : mappings.filter (·.target = name) =
      component.wiring.outputMappings.filter (·.target = name)) :
    (component.withOutputMappings mappings).lastMapping? name = component.lastMapping? name := by
  unfold wiring at hsame
  unfold lastMapping? withOutputMappings
  cases himplementation : component.implementation <;> rw [himplementation] at hsame
  case graph | map => exact OutputMapping.last?_congr hsame
  case conditional => exact OutputMapping.last?_congr (OutputMapping.filter_target_filter _ hsame)
  case brick | any => rfl

/-- They do not change the source from it either. -/
theorem MappingSource.unique (h : component.MappingSource settings mapping source)
    (hsame : mappings.filter (·.target = mapping.target) =
      component.wiring.outputMappings.filter (·.target = mapping.target))
    (h' : (component.withOutputMappings mappings).MappingSource settings mapping source') :
    source' = source := by
  have himplementation : (component.withOutputMappings mappings).implementation =
      component.implementation.withOutputMappings mappings := rfl
  unfold wiring at hsame
  cases h with
  | node hgraph =>
    rw [hgraph] at himplementation
    cases h' with
    | node _ => rfl
    | map hmap => cases himplementation.symm.trans hmap
    | branches hconditional _ => cases himplementation.symm.trans hconditional
  | map hmap =>
    rw [hmap] at himplementation
    cases h' with
    | node hgraph => cases himplementation.symm.trans hgraph
    | map _ => rfl
    | branches hconditional _ => cases himplementation.symm.trans hconditional
  | branches hconditional hexpression =>
    rw [hconditional] at himplementation hsame
    cases h' with
    | node hgraph => cases himplementation.symm.trans hgraph
    | map hmap => cases himplementation.symm.trans hmap
    | branches hconditional' hexpression' =>
      -- The condition and the inputs are as they were, and so is the expression.
      obtain rfl := Implementation.conditional.inj (himplementation.symm.trans hconditional')
      obtain rfl := Except.ok.inj (hexpression.symm.trans hexpression')
      rw [Conditional.portFalse_congr hsame]

theorem MappingSource.keepsName (h : component.MappingSource settings mapping source) :
    source.KeepsName := by
  cases h with
  | node _ => exact .ofTask _ _
  | map _ => exact .ofTask _ _
  | branches _ _ => exact .ofBranches _ _ _ _ _

/-! ## Outputs -/

/-- **Where the outputs of a composite come from.** -/
theorem sourcedByLast (hdistinct : (component.outputs.map Port.name).Nodup)
    (hcomposite : component.IsComposite) (h : component.template settings scopes = .ok template) :
    component.SourcedByLast settings template := by
  unfold Component.template at h
  unfold SourcedByLast lastMapping?
  cases himplementation : component.implementation <;> rw [himplementation] at h
  case brick block => exact absurd himplementation (hcomposite block)
  case graph block =>
    obtain ⟨_, outputs, -, houtputs, rfl⟩ := Graph.template_eq_ok.1 h
    refine ⟨_, fun _ _ _ => .node himplementation, ?_⟩
    exact component.connectOutputs_eq hdistinct (fun _ => .ofTask _ _)
      (fun _ _ => .ofTask _ _ _ _) houtputs
  case map block =>
    obtain ⟨_, _, outputs, -, -, houtputs, rfl⟩ := MapBlock.template_eq_ok.1 h
    refine ⟨_, fun _ _ _ => .map himplementation, ?_⟩
    exact component.connectOutputs_eq hdistinct (fun _ => .ofTask _ _)
      (fun _ _ => .ofTask _ _ _ _) houtputs
  case conditional block =>
    obtain ⟨_, _, _, _, outputs, -, -, -, -, -, houtputs, rfl⟩ := Conditional.template_eq_ok.1 h
    rw [Conditional.outputs] at houtputs
    by_cases hempty : block.outputMappings.isEmpty = true
    · -- Without mappings no expression is asked for, and no output has a source.
      rw [if_pos hempty] at houtputs
      obtain rfl := Except.ok.inj houtputs
      have hnone : ∀ name, OutputMapping.last? block.outputMappingsTrue name = none := by
        intro name
        rw [Conditional.outputMappingsTrue, List.isEmpty_iff.1 hempty]
        rfl
      refine ⟨fun _ => .ofTask "" "", fun name mapping hlast => ?_, ?_⟩
      · cases (hnone name).symm.trans hlast
      · simp only [Implementation.lastMapping?, hnone, Option.map_none]
        exact component.outputInterface_eq
    · rw [if_neg hempty] at houtputs
      obtain ⟨expression, hexpression, houtputs⟩ := bind_eq_ok.1 houtputs
      refine ⟨_, fun _ _ _ => .branches himplementation hexpression, ?_⟩
      exact component.connectOutputs_eq hdistinct (fun _ => .ofBranches _ _ _ _ _)
        (fun _ _ => .ofBranches _ _ _ _ _ _ _) houtputs
  case any => cases h

end Component

/-- Of items that are declared name by name, the one of a name depends on the value of that name. -/
theorem Manifest.find?_declared_congr {α β : Type} {key : α → String} {declare : β → String → α}
    {value other : String → β} {name : String} {names : List String}
    (hvalue : ∀ name, key (declare (value name) name) = name)
    (hother : ∀ name, key (declare (other name) name) = name) (hsame : value name = other name) :
    (names.map fun name => declare (value name) name).find? (fun item => key item = name) =
      (names.map fun name => declare (other name) name).find? (fun item => key item = name) := by
  induction names with
  | nil => rfl
  | cons first names ih =>
    rw [List.map_cons, List.map_cons, List.find?_cons, List.find?_cons, hvalue, hother]
    by_cases hname : first = name
    · rw [decide_eq_true hname, hname, hsame]
    · rw [decide_eq_false hname]
      exact ih

/-- What is declared under a name depends on the source of that name. -/
theorem Port.declared_sourced_congr {ports : List Port} {source? other? : String → Option OutputSource}
    {name : String} (hkeeps : ∀ name source, source? name = some source → source.KeepsName)
    (hkeeps' : ∀ name source, other? name = some source → source.KeepsName)
    (hsame : source? name = other? name) :
    (sourced ports source?).declared name = (sourced ports other?).declared name := by
  have hname : ∀ (value? : String → Option OutputSource),
      (∀ name source, value? name = some source → source.KeepsName) →
      ∀ name, (OutputSource.declareArtifact (value? name) name).name = name := by
    intro value? hvalue name
    cases hsource : value? name with
    | none => rfl
    | some source => exact hvalue name source hsource _
  refine Prod.ext ?_ ?_
  · exact Manifest.find?_declared_congr (fun _ => rfl) (fun _ => rfl) hsame
  · exact Manifest.find?_declared_congr (hname source? hkeeps) (hname other? hkeeps') hsame

namespace Component

variable {component : Component} {settings : Settings} {scopes : Scopes}
variable {template template' : Template} {mappings : List OutputMapping} {name : String}

/-- **Mappings to other outputs leave an output untouched.** -/
theorem declared_of_sameMappings (hdistinct : (component.outputs.map Port.name).Nodup)
    (hcomposite : component.IsComposite) (h : component.template settings scopes = .ok template)
    (hsame : mappings.filter (·.target = name) =
      component.wiring.outputMappings.filter (·.target = name))
    (h' : (component.withOutputMappings mappings).template settings scopes = .ok template') :
    template'.outputs.declared name = template.outputs.declared name := by
  have hcomposite' : (component.withOutputMappings mappings).IsComposite := by
    intro brick hbrick
    have himplementation : component.implementation.withOutputMappings mappings = .brick brick :=
      hbrick
    cases hown : component.implementation <;> rw [hown] at himplementation
    case brick block => exact hcomposite block hown
    case graph | map | conditional | any => cases himplementation
  have hsourced' : (component.withOutputMappings mappings).SourcedByLast settings template' :=
    sourcedByLast hdistinct hcomposite' h'
  obtain ⟨source, hsource, houtputs⟩ := sourcedByLast hdistinct hcomposite h
  obtain ⟨source', hsource', houtputs'⟩ := hsourced'
  have hkeeps : ∀ (composite : Component) (given : OutputMapping → OutputSource),
      (∀ name mapping, composite.lastMapping? name = some mapping →
        composite.MappingSource settings mapping (given mapping)) →
      ∀ name source, (composite.lastMapping? name).map given = some source →
        source.KeepsName := by
    intro composite given hgiven name source hname
    obtain ⟨mapping, hlast, rfl⟩ := Option.map_eq_some_iff.1 hname
    exact (hgiven name mapping hlast).keepsName
  rw [houtputs, houtputs']
  refine Port.declared_sourced_congr (hkeeps _ source' hsource') (hkeeps _ source hsource) ?_
  -- The same mapping counts for both, and both have the same source from it.
  have hlast := lastMapping?_withOutputMappings hsame
  rw [hlast]
  cases hmapping : component.lastMapping? name with
  | none => rfl
  | some mapping =>
    obtain rfl := target_of_lastMapping? hmapping
    rw [hmapping] at hlast
    have hunique := (hsource _ mapping hmapping).unique hsame (hsource' _ mapping hlast)
    rw [Option.map_some, Option.map_some, hunique]

/-- **An interface depends on the ports alone.** When a tree is lowered, every component that is
visited has a template, whatever its implementation, that declares on each channel the inputs and
the outputs of the component that belong to it, in their order, and nothing else; and these are all
the templates there are. In a composite each output has the source from the last mapping to it, of
the first branch in a conditional, and keeps it whatever mappings to other outputs there are. -/
theorem interface_of_ports {root : Component} {templates : List Template}
    (hok : root.templates settings scopes = .ok templates) :
    (∀ template ∈ templates, ∃ visit, Visit.Reaches ⟨root, scopes⟩ visit ∧
      visit.template settings = .ok template) ∧
    ∀ visit, Visit.Reaches ⟨root, scopes⟩ visit → ∃ template,
      visit.template settings = .ok template ∧
      (∀ channel, template.inputs.names channel = Port.namesOn channel visit.component.inputs ∧
        template.outputs.names channel = Port.namesOn channel visit.component.outputs) ∧
      (visit.component.IsComposite → visit.component.SourcedByLast settings template ∧
        ∀ mappings name template', mappings.filter (·.target = name) =
            visit.component.wiring.outputMappings.filter (·.target = name) →
          (visit.component.withOutputMappings mappings).template settings visit.scopes =
            .ok template' →
          template'.outputs.declared name = template.outputs.declared name) := by
  refine ⟨fun template hmem => exists_visit_of_mem hok hmem, fun visit hreaches => ?_⟩
  obtain ⟨repeats, hrepeats, -⟩ := templates_eq_ok hok
  obtain ⟨template, htemplate⟩ := hreaches.exists_template hrepeats
  have hvalid := hreaches.within.valid (valid_of_templates hok)
  have hdistinct := (validSelf hvalid).2.2.1
  refine ⟨template, htemplate, names_of_template htemplate, fun hcomposite => ⟨?_, ?_⟩⟩
  · exact sourcedByLast hdistinct hcomposite htemplate
  · intro mappings name template' hsame htemplate'
    exact declared_of_sameMappings hdistinct hcomposite htemplate hsame htemplate'

/-- A graph of two bricks with one output that is mapped twice, and another one in between. -/
def remappedGraph : Component :=
  let graph : Graph :=
    ⟨[⟨"first", .inline (stringBrick 1)⟩, ⟨"second", .inline (stringBrick 2)⟩], [],
      [⟨"in", ⟨"first", "in"⟩⟩, ⟨"in", ⟨"second", "in"⟩⟩],
      [⟨⟨"first", "out"⟩, "left"⟩, ⟨⟨"second", "out"⟩, "right"⟩, ⟨⟨"second", "out"⟩, "left"⟩]⟩
  { ofImplementation (.repeating 3) "graph" (.graph graph) with
    inputs := [⟨"key", .envSecret⟩, ⟨"in", .parameterArray⟩, ⟨"disk", .volume⟩]
    outputs := [⟨"left", .parameter⟩, ⟨"disk", .volume⟩, ⟨"right", .parameter⟩] }

/-- The output that is mapped twice has the second source, and keeps it when the mapping to the other
output is taken away. -/
theorem remappedGraph_interface :
    ∃ template, remappedGraph.template .default .empty = .ok template ∧
      template.inputs.names .parameter = ["in"] ∧ template.inputs.names .artifact = [] ∧
      template.outputs.names .parameter = ["left", "right"] ∧
      template.outputs.declared "left" =
        (some ⟨"left", none, some (.ofParameter (Placeholder.taskParameter "second" "out"))⟩, none) ∧
      ∃ template', (remappedGraph.withOutputMappings [⟨⟨"first", "out"⟩, "left"⟩,
          ⟨⟨"second", "out"⟩, "left"⟩]).template .default .empty = .ok template' ∧
        template'.outputs.declared "left" = template.outputs.declared "left" := by
  have hok : ∃ templates, remappedGraph.templates .default .empty = .ok templates ∧
      templates.length = 3 := by
    rw [← exists_ok_iff]
    decide
  have hother : ∃ template', (remappedGraph.withOutputMappings [⟨⟨"first", "out"⟩, "left"⟩,
      ⟨⟨"second", "out"⟩, "left"⟩]).template .default .empty = .ok template' ∧
      template'.inputs.artifacts = [] := by
    rw [← exists_ok_iff]
    decide
  obtain ⟨templates, hok, -⟩ := hok
  obtain ⟨template', htemplate', -⟩ := hother
  obtain ⟨template, htemplate, hnames, hcomposite⟩ :=
    (interface_of_ports hok).2 ⟨remappedGraph, .empty⟩ .refl
  obtain ⟨⟨source, hsource, houtputs⟩, hframe⟩ := hcomposite fun _ hbrick => by cases hbrick
  refine ⟨template, htemplate, (hnames .parameter).1, (hnames .artifact).1, (hnames .parameter).2,
    ?_, template', htemplate', hframe [⟨⟨"first", "out"⟩, "left"⟩, ⟨⟨"second", "out"⟩, "left"⟩] "left"
      template' rfl htemplate'⟩
  have hgiven : source ⟨⟨"second", "out"⟩, "left"⟩ = .ofTask "second" "out" := by
    have hlast := hsource "left" ⟨⟨"second", "out"⟩, "left"⟩ rfl
    generalize source ⟨⟨"second", "out"⟩, "left"⟩ = given at hlast
    cases hlast with
    | node _ => rfl
    | map hmap => cases hmap
    | branches hconditional _ => cases hconditional
  rw [houtputs]
  show (some (OutputSource.declareParameter (some (source ⟨⟨"second", "out"⟩, "left"⟩)) "left"),
    none) = _
  rw [hgiven]
  rfl

end Component

end Pipeline
