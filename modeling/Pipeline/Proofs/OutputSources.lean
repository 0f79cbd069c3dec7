/-
Output sources: what the outputs of a template are taken from.

A brick finds each of its outputs in a file, and is not lowered without one. A composite
declares all of its outputs at first, and then every output mapping gives a source to the
output that it leads to, in place of the one that it had. What comes out is said in one
equation: the outputs are those of the component, each with the source of the last mapping
that leads to it, and without a source where no mapping does
(`Component.connectOutputs_eq`).

Two things are not asked for on the way: that some mapping leads to an output, and that the
port is there at which a mapping begins. An output to which no mapping leads is declared
without a source. A source always names a task, and the template that the task calls puts
the port out exactly when the component at its node does (`Component.outputs_sourced`).
Both gaps show in one small graph (`Component.looseEnds_unsourced`).
-/
import Pipeline.Proofs.ArgumentSources

set_option autoImplicit false

namespace Pipeline

open Manifest (Arguments Artifact Dag Parameter Task Template)

attribute [ext] Arguments

/-! ## What is meant -/

/-- A file of the container. -/
def OutputSource.ofFile (path : String) : OutputSource where
  parameter := .ofPath path
  artifact := fun artifact => { artifact with path := some path }

/-- What a source makes of an artifact does not depend on the source that it had before. -/
def OutputSource.Overrides (source before : OutputSource) : Prop :=
  ∀ artifact, source.artifact (before.artifact artifact) = source.artifact artifact

/-- The parameter that an output declares, with its source if it has one. -/
def OutputSource.declareParameter (source? : Option OutputSource) (name : String) : Parameter :=
  ⟨name, none, source?.map OutputSource.parameter⟩

/-- The artifact that an output declares, with its source if it has one. -/
def OutputSource.declareArtifact (source? : Option OutputSource) (name : String) : Artifact :=
  source?.elim (.named name) fun source => source.artifact (.named name)

/-- The outputs of both channels, in order, each with its source if it has one. -/
def Port.sourced (ports : List Port) (source? : String → Option OutputSource) : Arguments where
  parameters := (namesOn .parameter ports).map fun name =>
    OutputSource.declareParameter (source? name) name
  artifacts := (namesOn .artifact ports).map fun name =>
    OutputSource.declareArtifact (source? name) name

/-- The last of the mappings to an output. -/
def OutputMapping.last? (mappings : List OutputMapping) (target : String) : Option OutputMapping :=
  mappings.reverse.find? (·.target = target)

/-- The file in which a brick finds an output. -/
def Brick.file? (brick : Brick) (name : String) : Option String :=
  match (brick.result? name).map BrickResult.source with
  | some (.file path) => some path
  | _ => none

/-- The output of a task that is read, and the node at which the task runs. -/
structure OutputRead where
  node : Node
  task : String
  port : String

/-- What a component takes an output from, and which outputs of tasks are read for it. -/
inductive Component.Supplies (component : Component) (settings : Settings) (name : String) :
    OutputSource → List OutputRead → Prop where
  | file {brick : Brick} {path : String} (hbrick : component.implementation = .brick brick)
      (hfile : brick.file? name = some path) : Supplies component settings name (.ofFile path) []
  | node {graph : Graph} {mapping : OutputMapping} {node : Node}
      (hgraph : component.implementation = .graph graph)
      (hlast : OutputMapping.last? graph.outputMappings name = some mapping)
      (hnode : graph.node? mapping.source.node = some node) :
      Supplies component settings name (.ofTask node.id mapping.source.port)
        [⟨node, node.id, mapping.source.port⟩]
  | map {map : MapBlock} {mapping : OutputMapping} (hmap : component.implementation = .map map)
      (hlast : OutputMapping.last? map.outputMappings name = some mapping) :
      Supplies component settings name (.ofTask settings.mapTaskName mapping.source.port)
        [⟨map.node, settings.mapTaskName, mapping.source.port⟩]
  | branches {conditional : Conditional} {mapping : OutputMapping} {expression : String}
      (hconditional : component.implementation = .conditional conditional)
      (hlast : OutputMapping.last? conditional.outputMappingsTrue name = some mapping)
      (hexpression : conditional.condition.expressionText component.inputs = .ok expression) :
      Supplies component settings name
        (.ofBranches expression settings.trueTaskName mapping.source.port settings.falseTaskName
          (conditional.portFalse mapping))
        (⟨conditional.nodeTrue, settings.trueTaskName, mapping.source.port⟩ ::
          (conditional.nodeFalse.bind fun node => (conditional.portFalse mapping).map fun port =>
            ⟨node, settings.falseTaskName, port⟩).toList)

/-- The outputs of a template, each with its source. A brick has a source for each of them, a
composite for those to which a mapping leads. -/
structure Component.OutputsSourced (component : Component) (settings : Settings)
    (template : Template) (source? : String → Option OutputSource) : Prop where
  outputs : template.outputs = Port.sourced component.outputs source?
  isSome_iff : ∀ channel, ∀ name ∈ Port.namesOn channel component.outputs,
    (source? name).isSome = true ↔ (component.IsComposite →
      ∃ mapping ∈ component.wiring.outputMappings, mapping.target = name)
  supplies : ∀ name source, source? name = some source →
    ∃ reads, component.Supplies settings name source reads

/-- The tasks that are read call the template of the component at their node, which puts the output
out on a channel exactly when the component does. -/
def OutputRead.Answered (read : OutputRead) (templates : List Template) (dag : Dag) : Prop :=
  ∃ child, read.node.component? = some child ∧ dag.Runs templates read.task fun callee =>
    ∀ channel, read.port ∈ callee.outputs.names channel ↔
      read.port ∈ Port.namesOn channel child.outputs

/-! ## Giving sources -/

/-- Of items with distinct names, the one of a name is changed as its own value is. -/
theorem Manifest.modifyFirst_map_update {α β : Type} {key : α → String}
    {declare : Option β → String → α} {value? : String → Option β} {target : String} {value : β}
    {change : α → α} {names : List String} (hdistinct : names.Nodup)
    (hkey : ∀ name, key (declare (value? name) name) = name)
    (hchange : change (declare (value? target) target) = declare (some value) target) :
    modifyFirst (fun item => key item = target) change
        (names.map fun name => declare (value? name) name) =
      names.map fun name => declare (Function.update value? target (some value) name) name := by
  induction names with
  | nil => rfl
  | cons name names ih =>
    obtain ⟨hnew, hrest⟩ := List.nodup_cons.1 hdistinct
    rw [List.map_cons, List.map_cons, modifyFirst, hkey]
    by_cases htarget : name = target
    · -- No later item has the name.
      rw [← htarget] at hchange ⊢
      rw [if_pos (decide_eq_true rfl), hchange, Function.update_self]
      refine congrArg _ (List.map_congr_left fun other hother => ?_)
      rw [Function.update_of_ne (ne_of_mem_of_not_mem hother hnew)]
    · rw [if_neg (by simpa using htarget), Function.update_of_ne htarget, ih hrest]

namespace Port

variable {ports : List Port} {source? : String → Option OutputSource} {target : String}

/-- An output that does not belong to a channel is none of those that are declared there. -/
theorem map_update_of_notMem {α : Type} {channel : Channel} (hother : target ∉ namesOn channel ports)
    (declare : Option OutputSource → String → α) (source : OutputSource) :
    ((namesOn channel ports).map fun name => declare (source? name) name) =
      (namesOn channel ports).map fun name =>
        declare (Function.update source? target (some source) name) name := by
  refine List.map_congr_left fun name hname => ?_
  rw [Function.update_of_ne (ne_of_mem_of_not_mem hname hother)]

theorem sourced_modifyParameter (hdistinct : (ports.map Port.name).Nodup)
    (hother : target ∉ namesOn .artifact ports) (source : OutputSource) :
    ((sourced ports source?).modifyParameter target fun parameter =>
        { parameter with source := some source.parameter }) =
      sourced ports (Function.update source? target (some source)) := by
  have hnames := hdistinct.sublist (namesOn_sublist .parameter ports)
  refine Arguments.ext ?_ (map_update_of_notMem hother _ source)
  exact Manifest.modifyFirst_map_update hnames (fun _ => rfl) rfl

theorem sourced_modifyArtifact (hdistinct : (ports.map Port.name).Nodup)
    (hother : target ∉ namesOn .parameter ports)
    (hkeeps : ∀ name before, source? name = some before → before.KeepsName) (source : OutputSource)
    (hover : ∀ before, source? target = some before → source.Overrides before) :
    (sourced ports source?).modifyArtifact target source.artifact =
      sourced ports (Function.update source? target (some source)) := by
  have hnames := hdistinct.sublist (namesOn_sublist .artifact ports)
  refine Arguments.ext (map_update_of_notMem hother _ source) ?_
  refine Manifest.modifyFirst_map_update hnames (fun name => ?_) ?_
  · cases hsource : source? name with
    | none => rfl
    | some before => exact hkeeps name before hsource _
  · cases hsource : source? target with
    | none => rfl
    | some before => exact hover before hsource _

/-- An output on no channel has no source to be given. -/
theorem sourced_update (hother : ∀ channel, target ∉ namesOn channel ports) (source : OutputSource) :
    sourced ports source? = sourced ports (Function.update source? target (some source)) :=
  Arguments.ext (map_update_of_notMem (hother .parameter) _ source)
    (map_update_of_notMem (hother .artifact) _ source)

end Port

/-! ## Composites -/

/-- One more mapping replaces the source of the output to which it leads. -/
theorem OutputMapping.map_last?_append (source : OutputMapping → OutputSource)
    (mappings : List OutputMapping) (mapping : OutputMapping) :
    (fun name => (last? (mappings ++ [mapping]) name).map source) =
      Function.update (fun name => (last? mappings name).map source) mapping.target
        (some (source mapping)) := by
  funext name
  rw [last?, List.reverse_append, List.reverse_singleton, List.singleton_append, List.find?_cons]
  by_cases hname : mapping.target = name
  · rw [decide_eq_true hname, ← hname, Function.update_self]
    rfl
  · rw [decide_eq_false hname, Function.update_of_ne (Ne.symm hname)]
    rfl

namespace Component

variable {component : Component} {source : OutputMapping → OutputSource}
variable {mappings : List OutputMapping} {outputs : Arguments}

/-- To connect an output gives it the source of the mapping, and leaves the other ones alone. -/
theorem connectOutput_eq {mapping : OutputMapping} {source? : String → Option OutputSource}
    (hdistinct : (component.outputs.map Port.name).Nodup)
    (hkeeps : ∀ name before, source? name = some before → before.KeepsName)
    (hover : ∀ before, source? mapping.target = some before → (source mapping).Overrides before)
    (h : component.connectOutput source (Port.sourced component.outputs source?) mapping =
      .ok outputs) :
    outputs = Port.sourced component.outputs
      (Function.update source? mapping.target (some (source mapping))) := by
  obtain ⟨port, hport, h⟩ := bind_eq_ok.1 h
  have hfind := output_eq_ok.1 hport
  have hname : port.name = mapping.target := key_of_find? hfind
  -- The output belongs to the channel of its type, and to no other one.
  have hchannel : ∀ channel, mapping.target ∈ Port.namesOn channel component.outputs ↔
      port.type.channel? = some channel := by
    intro channel
    rw [← Port.channelOf?_eq_some hdistinct, Port.channelOf?, ← output?, hfind, Option.bind_some]
  rw [hname] at h
  cases htype : port.type <;> rw [htype] at h hchannel
  case parameter | parameterArray =>
    cases h
    exact Port.sourced_modifyParameter hdistinct (by rw [hchannel]; decide) _
  case artifact =>
    cases h
    exact Port.sourced_modifyArtifact hdistinct (by rw [hchannel]; decide) hkeeps _ hover
  case volume =>
    cases h
    refine Port.sourced_update (fun channel hmem => ?_) _
    cases (hchannel channel).1 hmem
  case envSecret => cases h

theorem outputInterface_eq (component : Component) :
    component.outputInterface = Port.sourced component.outputs fun _ => none := by
  refine Arguments.ext ?_ ?_
  all_goals
    simp only [Port.sourced, Port.namesOn, List.map_filterMap]
    refine List.filterMap_congr fun port _ => ?_
    obtain ⟨name, type⟩ := port
    cases type <;> rfl

/-- **The outputs of a composite** are those of the component, each with the source of the last
mapping to it. -/
theorem connectOutputs_eq (hdistinct : (component.outputs.map Port.name).Nodup)
    (hkeeps : ∀ mapping, (source mapping).KeepsName)
    (hover : ∀ later earlier, (source later).Overrides (source earlier))
    (h : component.connectOutputs source mappings = .ok outputs) :
    outputs = Port.sourced component.outputs fun name =>
      (OutputMapping.last? mappings name).map source := by
  induction mappings using List.reverseRecOn generalizing outputs with
  | nil =>
    obtain rfl := pure_eq_ok.1 h
    exact component.outputInterface_eq
  | append_singleton mappings mapping ih =>
    rw [connectOutputs, List.foldlM_append] at h
    obtain ⟨state, hstate, h⟩ := bind_eq_ok.1 h
    obtain rfl := ih hstate
    rw [List.foldlM_cons] at h
    obtain ⟨next, hnext, h⟩ := bind_eq_ok.1 h
    obtain rfl := pure_eq_ok.1 h
    rw [OutputMapping.map_last?_append]
    refine connectOutput_eq hdistinct ?_ ?_ hnext
    · intro name before hbefore
      obtain ⟨earlier, -, rfl⟩ := Option.map_eq_some_iff.1 hbefore
      exact hkeeps earlier
    · intro before hbefore
      obtain ⟨earlier, -, rfl⟩ := Option.map_eq_some_iff.1 hbefore
      exact hover mapping earlier

end Component

/-! ## Bricks -/

namespace Brick

variable {brick : Brick}

theorem resultFile_eq_ok_iff {port : Port} {path : String} :
    brick.resultFile port = .ok path ↔ brick.file? port.name = some path := by
  rw [resultFile, file?]
  cases (brick.result? port.name).map BrickResult.source with
  | none => simp [fault]
  | some source => cases source <;> simp [fault]

/-- **The outputs of a brick** are those of the component, each with its file. -/
theorem outputInterface_eq {ports : List Port} {outputs : Arguments}
    (h : brick.outputInterface ports = .ok outputs) :
    outputs = Port.sourced ports fun name => (brick.file? name).map .ofFile := by
  induction ports generalizing outputs with
  | nil =>
    cases h
    rfl
  | cons port ports ih =>
    obtain ⟨name, type⟩ := port
    rw [outputInterface] at h
    cases type
    case volume | envSecret => exact ih h
    case parameter | parameterArray =>
      obtain ⟨path, hpath, h⟩ := bind_eq_ok.1 h
      obtain ⟨rest, hrest, h⟩ := bind_eq_ok.1 h
      obtain rfl := pure_eq_ok.1 h
      obtain rfl := ih hrest
      have hfile : brick.file? name = some path := resultFile_eq_ok_iff.1 hpath
      refine Arguments.ext (congrArg (· :: _) ?_) rfl
      show _ = OutputSource.declareParameter ((brick.file? name).map .ofFile) name
      rw [hfile]
      rfl
    case artifact =>
      obtain ⟨path, hpath, h⟩ := bind_eq_ok.1 h
      obtain ⟨rest, hrest, h⟩ := bind_eq_ok.1 h
      obtain rfl := pure_eq_ok.1 h
      obtain rfl := ih hrest
      have hfile : brick.file? name = some path := resultFile_eq_ok_iff.1 hpath
      refine Arguments.ext rfl (congrArg (· :: _) ?_)
      show _ = OutputSource.declareArtifact ((brick.file? name).map .ofFile) name
      rw [hfile]
      rfl

theorem outputsSourced {component : Component} {settings : Settings} {secrets : SecretScope}
    {volumes : VolumeScope} {root : String} {template : Template}
    (hbrick : component.implementation = .brick brick)
    (h : brick.template component secrets volumes root = .ok template) :
    component.OutputsSourced settings template fun name => (brick.file? name).map .ofFile := by
  obtain ⟨_, _, outputs, -, -, houtputs, rfl⟩ := template_eq_ok.1 h
  refine ⟨outputInterface_eq houtputs, fun channel name hname => ?_, fun name source hsource => ?_⟩
  · obtain ⟨type, hport, hchannel⟩ := Port.mem_namesOn.1 hname
    have htype : type ∈ [PortType.parameter, .parameterArray, .artifact] := by
      cases type
      case parameter | parameterArray | artifact => decide
      case volume | envSecret => cases hchannel
    obtain ⟨path, hresult⟩ := exists_file_of_outputInterface houtputs hport htype
    have hfile : brick.file? name = some path := by
      rw [file?, hresult]
      rfl
    rw [hfile]
    exact iff_of_true rfl fun hcomposite => absurd hbrick (hcomposite brick)
  · obtain ⟨path, hfile, rfl⟩ := Option.map_eq_some_iff.1 hsource
    exact ⟨[], .file hbrick hfile⟩

end Brick

/-! ## Sources of composites -/

theorem OutputSource.Overrides.ofTask (task port task' port' : String) :
    (OutputSource.ofTask task port).Overrides (OutputSource.ofTask task' port') :=
  fun _ => rfl

theorem OutputSource.Overrides.ofBranches (expression taskTrue portTrue portTrue' taskFalse : String)
    (portFalse portFalse' : Option String) :
    (OutputSource.ofBranches expression taskTrue portTrue taskFalse portFalse).Overrides
      (OutputSource.ofBranches expression taskTrue portTrue' taskFalse portFalse') :=
  fun _ => rfl

/-- There is a last mapping to an output when there is one at all. -/
theorem OutputMapping.isSome_last? {mappings : List OutputMapping} {target : String} :
    (last? mappings target).isSome = true ↔ ∃ mapping ∈ mappings, mapping.target = target := by
  rw [last?, List.find?_isSome]
  simp only [List.mem_reverse, decide_eq_true_eq]

theorem OutputMapping.mem_of_last? {mappings : List OutputMapping} {target : String}
    {mapping : OutputMapping} (h : last? mappings target = some mapping) : mapping ∈ mappings :=
  List.mem_reverse.1 (List.mem_of_find?_eq_some h)

/-- Of a composite, an output has a source when there is a mapping to it. -/
theorem Component.isSome_map_last?_iff {component : Component} {mappings : List OutputMapping}
    {name : String} (source : OutputMapping → OutputSource) (hcomposite : component.IsComposite)
    (hmappings : (∃ mapping ∈ mappings, mapping.target = name) ↔
      ∃ mapping ∈ component.wiring.outputMappings, mapping.target = name) :
    ((OutputMapping.last? mappings name).map source).isSome = true ↔ (component.IsComposite →
      ∃ mapping ∈ component.wiring.outputMappings, mapping.target = name) := by
  rw [Option.isSome_map, OutputMapping.isSome_last?, hmappings]
  exact ⟨fun h _ => h, fun h => h hcomposite⟩

theorem Graph.outputsSourced {graph : Graph} {component : Component} {settings : Settings}
    {template : Template} (hgraph : component.implementation = .graph graph)
    (hdistinct : (component.outputs.map Port.name).Nodup) (hwired : graph.WellWired)
    (h : graph.template component = .ok template) :
    component.OutputsSourced settings template fun name =>
      (OutputMapping.last? graph.outputMappings name).map fun mapping =>
        .ofTask mapping.source.node mapping.source.port := by
  obtain ⟨tasks, outputs, -, houtputs, rfl⟩ := template_eq_ok.1 h
  have hcomposite : component.IsComposite := by simp [Component.IsComposite, hgraph]
  have hwiring : component.wiring = graph := Component.wiring_eq hgraph
  refine ⟨component.connectOutputs_eq hdistinct (fun _ => .ofTask _ _) (fun _ _ => .ofTask _ _ _ _)
    houtputs, fun channel name _ => ?_, fun name source hsource => ?_⟩
  · exact Component.isSome_map_last?_iff _ hcomposite (by rw [hwiring])
  · obtain ⟨mapping, hlast, rfl⟩ := Option.map_eq_some_iff.1 hsource
    obtain ⟨node, -, hnode⟩ := exists_find? (hwired.known_output (OutputMapping.mem_of_last? hlast))
    have hid : node.id = mapping.source.node := key_of_find? hnode
    rw [← hid]
    exact ⟨_, .node hgraph hlast hnode⟩

theorem MapBlock.outputsSourced {map : MapBlock} {component : Component} {settings : Settings}
    {template : Template} (hmap : component.implementation = .map map)
    (hdistinct : (component.outputs.map Port.name).Nodup)
    (h : map.template component settings = .ok template) :
    component.OutputsSourced settings template fun name =>
      (OutputMapping.last? map.outputMappings name).map fun mapping =>
        .ofTask settings.mapTaskName mapping.source.port := by
  obtain ⟨_, _, outputs, -, -, houtputs, rfl⟩ := template_eq_ok.1 h
  have hcomposite : component.IsComposite := by simp [Component.IsComposite, hmap]
  have hwiring : component.wiring = map.wiring := Component.wiring_eq hmap
  refine ⟨component.connectOutputs_eq hdistinct (fun _ => .ofTask _ _) (fun _ _ => .ofTask _ _ _ _)
    houtputs, fun channel name _ => ?_, fun name source hsource => ?_⟩
  · exact Component.isSome_map_last?_iff _ hcomposite (by rw [hwiring]; rfl)
  · obtain ⟨mapping, hlast, rfl⟩ := Option.map_eq_some_iff.1 hsource
    exact ⟨_, .map hmap hlast⟩

/-- A conditional connects its outputs by the mappings of the first branch, and each of its mappings
has one of those beside it. -/
theorem Conditional.outputsSourced {conditional : Conditional} {component : Component}
    {settings : Settings} {template : Template}
    (hconditional : component.implementation = .conditional conditional)
    (hdistinct : (component.outputs.map Port.name).Nodup)
    (h : conditional.template component settings = .ok template) :
    ∃ source?, component.OutputsSourced settings template source? := by
  obtain ⟨_, _, _, _, outputs, hmappings, -, -, -, -, houtputs, rfl⟩ := template_eq_ok.1 h
  have hcomposite : component.IsComposite := by simp [Component.IsComposite, hconditional]
  have hwiring : component.wiring = conditional.wiring := Component.wiring_eq hconditional
  have htrue : ∀ name, (∃ mapping ∈ conditional.outputMappingsTrue, mapping.target = name) ↔
      ∃ mapping ∈ component.wiring.outputMappings, mapping.target = name := by
    intro name
    rw [hwiring]
    constructor
    · rintro ⟨mapping, hmapping, rfl⟩
      exact ⟨mapping, (List.mem_filter.1 hmapping).1, rfl⟩
    · rintro ⟨mapping, hmapping, rfl⟩
      obtain ⟨other, hother, hnode, htarget⟩ := exists_mapping_true hmappings hmapping
      exact ⟨other, List.mem_filter.2 ⟨hother, decide_eq_true hnode⟩, htarget⟩
  rw [Conditional.outputs] at houtputs
  by_cases hempty : conditional.outputMappings.isEmpty = true
  · rw [if_pos hempty] at houtputs
    obtain rfl := Except.ok.inj houtputs
    have hnone : conditional.outputMappingsTrue = [] := by
      rw [outputMappingsTrue, List.isEmpty_iff.1 hempty]
      rfl
    refine ⟨fun _ => none, component.outputInterface_eq, fun channel name _ => ?_,
      fun name source hsource => ?_⟩
    · refine iff_of_false Bool.false_ne_true fun hmapped => ?_
      obtain ⟨mapping, hmapping, -⟩ := (htrue name).2 (hmapped hcomposite)
      rw [hnone] at hmapping
      cases hmapping
    · cases hsource
  · rw [if_neg hempty] at houtputs
    obtain ⟨expression, hexpression, houtputs⟩ := bind_eq_ok.1 houtputs
    refine ⟨_, component.connectOutputs_eq hdistinct (fun _ => .ofBranches _ _ _ _ _)
      (fun _ _ => .ofBranches _ _ _ _ _ _ _) houtputs, fun channel name _ => ?_,
      fun name source hsource => ?_⟩
    · exact Component.isSome_map_last?_iff _ hcomposite (htrue name)
    · obtain ⟨mapping, hlast, rfl⟩ := Option.map_eq_some_iff.1 hsource
      exact ⟨_, .branches hconditional hlast hexpression⟩

theorem Component.exists_outputsSourced {component : Component} {settings : Settings}
    {scopes : Scopes} {template : Template} (hvalid : component.validate = .ok ())
    (h : component.template settings scopes = .ok template) :
    ∃ source?, component.OutputsSourced settings template source? := by
  have hdistinct := (validSelf hvalid).2.2.1
  have hwired := wellWired hvalid
  unfold Component.template at h
  unfold wiring at hwired
  cases himplementation : component.implementation <;> rw [himplementation] at h hwired
  case brick block => exact ⟨_, block.outputsSourced himplementation h⟩
  case graph block => exact ⟨_, block.outputsSourced himplementation hdistinct hwired h⟩
  case map block => exact ⟨_, block.outputsSourced himplementation hdistinct h⟩
  case conditional block => exact block.outputsSourced himplementation hdistinct h
  case any => cases h

/-! ## What is read -/

theorem Port.mem_namesOn_congr {left right : List Port} (h : ∀ port, port ∈ left ↔ port ∈ right)
    {name : String} {channel : Channel} :
    name ∈ namesOn channel left ↔ name ∈ namesOn channel right := by
  simp only [mem_namesOn, h]

/-- All branches of a conditional have the outputs of the first one. -/
theorem Conditional.IsBalanced.sameOutputs {conditional : Conditional} {ports : List Port}
    (h : conditional.IsBalanced ports) {whenTrue child : Component} {node : Node}
    (htrue : conditional.nodeTrue.component? = some whenTrue)
    (hnode : node ∈ conditional.branches) (hchild : node.component? = some child) (port : Port) :
    port ∈ whenTrue.outputs ↔ port ∈ child.outputs := by
  rcases List.mem_cons.1 hnode with rfl | hnode
  · rw [Option.some.inj (htrue.symm.trans hchild)]
  · obtain ⟨first, second, hfirst, hsecond, -, houtputs⟩ :=
      h.branches node (Option.mem_toList.1 hnode)
    obtain rfl := Option.some.inj (htrue.symm.trans hfirst)
    obtain rfl := Option.some.inj (hchild.symm.trans hsecond)
    exact houtputs port

namespace Component

variable {root : Component} {settings : Settings} {scopes : Scopes} {templates : List Template}
variable {visit : Visit} {template : Template} {dag : Dag}

/-- Where all children have the same outputs, it does not matter which of the tasks is read. -/
theorem runs_of_sameOutputs (hids : root.FaithfulIds)
    (hok : root.templates settings scopes = .ok templates)
    (hreaches : Visit.Reaches ⟨root, scopes⟩ visit)
    (htemplate : visit.template settings = .ok template) (hdag : template.dag = some dag)
    {child : Component} (hsame : ∀ other, visit.component.HasChild other →
      ∀ port, port ∈ other.outputs ↔ port ∈ child.outputs)
    {name : String} (hnamed : ∃ task ∈ dag.tasks, task.name = name) (port : String) :
    dag.Runs templates name fun callee =>
      ∀ channel, port ∈ callee.outputs.names channel ↔ port ∈ Port.namesOn channel child.outputs := by
  have hvalid := hreaches.within.valid (valid_of_templates hok)
  have hruns := runsAt_of_template (wellWired hvalid) htemplate hdag
  refine ⟨hnamed, fun task htask _ => ?_⟩
  obtain ⟨claim, hclaim, hrun⟩ := exists_related hruns.flip htask
  obtain ⟨other, hother, hcalls, -⟩ := RunsAt.callee hrun
  have hchild := hasChild_of_claimant hclaim hother
  obtain ⟨callee, hcallee, hnames⟩ :=
    exists_interface hids hok (hreaches.within.child hchild)
  refine ⟨callee, by rw [hcalls, hcallee], fun channel => ?_⟩
  rw [(hnames channel).2]
  exact Port.mem_namesOn_congr (hsame other hchild)

/-- What a node of a graph puts out is read from its own task. -/
theorem answered_of_graph (hids : root.FaithfulIds)
    (hok : root.templates settings scopes = .ok templates)
    (hreaches : Visit.Reaches ⟨root, scopes⟩ visit)
    (htemplate : visit.template settings = .ok template) (hdag : template.dag = some dag)
    {graph : Graph} (hgraph : visit.component.implementation = .graph graph) {node : Node}
    (hnode : node ∈ graph.nodes) (port : String) :
    (OutputRead.mk node node.id port).Answered templates dag := by
  have hstructure := (validSelf (hreaches.within.valid (valid_of_templates hok))).2.2.2
  rw [hgraph] at hstructure
  obtain ⟨hclosed, -⟩ := Graph.validateStructure_eq_ok.1 hstructure
  obtain ⟨own, hown, hruns⟩ := runBy_of_template hgraph htemplate
  obtain rfl := Option.some.inj (hown.symm.trans hdag)
  obtain ⟨task, -, hrun⟩ := exists_related hruns hnode
  obtain ⟨child, hchild, -⟩ := Graph.RunsNode.template hrun
  have hwiring : visit.component.wiring = graph := wiring_eq hgraph
  obtain ⟨callee, hcallee, hnames⟩ :=
    exists_interface hids hok (hreaches.within.child (hasChild_of_node (hwiring ▸ hnode) hchild))
  refine ⟨child, hchild, Graph.runs_of_node hclosed.distinct hruns hnode hchild
    ⟨callee, hcallee, fun channel => ?_⟩⟩
  rw [(hnames channel).2]

/-- What a map puts out is read from its one task. -/
theorem answered_of_map (hids : root.FaithfulIds)
    (hok : root.templates settings scopes = .ok templates)
    (hreaches : Visit.Reaches ⟨root, scopes⟩ visit)
    (htemplate : visit.template settings = .ok template) (hdag : template.dag = some dag)
    {map : MapBlock} (hmap : visit.component.implementation = .map map) (port : String) :
    (OutputRead.mk map.node settings.mapTaskName port).Answered templates dag := by
  have h := htemplate
  rw [Visit.template, Component.template, hmap] at h
  obtain ⟨child, task, _, hchild, hwired, -, rfl⟩ := MapBlock.template_eq_ok.1 h
  obtain rfl := Option.some.inj hdag
  refine ⟨child, hchild, runs_of_sameOutputs hids hok hreaches htemplate rfl ?_ ?_ port⟩
  · rintro other ⟨node, hnode, hother⟩
    rw [children, hmap] at hnode
    rw [List.mem_singleton.1 hnode] at hother
    obtain rfl := Option.some.inj (hchild.symm.trans hother)
    exact fun _ => Iff.rfl
  · exact ⟨task, List.mem_singleton_self _, (Task.SameCall.wireInputs hwired).name⟩

/-- What a conditional puts out is read from the tasks of its branches. -/
theorem answered_of_conditional (hids : root.FaithfulIds)
    (hok : root.templates settings scopes = .ok templates)
    (hreaches : Visit.Reaches ⟨root, scopes⟩ visit)
    (htemplate : visit.template settings = .ok template) (hdag : template.dag = some dag)
    {conditional : Conditional}
    (hconditional : visit.component.implementation = .conditional conditional) {node : Node}
    {name : String} (hnode : (node = conditional.nodeTrue ∧ name = settings.trueTaskName) ∨
      conditional.nodeFalse = some node ∧ name = settings.falseTaskName) (port : String) :
    (OutputRead.mk node name port).Answered templates dag := by
  have h := htemplate
  rw [Visit.template, Component.template, hconditional] at h
  have hbalanced := conditional.isBalanced_of_template h
  have hbranch : node ∈ conditional.branches := by
    rcases hnode with ⟨rfl, -⟩ | ⟨hfalse, -⟩
    · exact List.mem_cons_self
    · exact List.mem_cons_of_mem _ (Option.mem_toList.2 hfalse)
  obtain ⟨child, hchild⟩ := conditional.inline_of_template h node hbranch
  obtain ⟨whenTrue, whenFalse, guardText, wired, _, -, hwhenTrue, hwhenFalse, -, hwired, -, rfl⟩ :=
    Conditional.template_eq_ok.1 h
  obtain rfl := Option.some.inj hdag
  refine ⟨child, hchild, runs_of_sameOutputs hids hok hreaches htemplate rfl ?_ ?_ port⟩
  · rintro other ⟨node', hnode', hother⟩ port
    rw [children, hconditional] at hnode'
    exact (hbalanced.sameOutputs hwhenTrue hnode' hother port).symm.trans
      (hbalanced.sameOutputs hwhenTrue hbranch hchild port)
  · rcases hnode with ⟨-, rfl⟩ | ⟨hfalse, rfl⟩
    · exact ⟨_, List.mem_cons_self, (Task.SameCall.wireInputs hwired).name⟩
    · rcases Conditional.componentFalse_eq_ok.1 hwhenFalse with
        ⟨hnone, -⟩ | ⟨second, component, -, -, -, -, rfl⟩
      · rw [hnone] at hfalse
        cases hfalse
      · exact ⟨_, List.mem_cons_of_mem _ (List.mem_singleton_self _), rfl⟩

/-- Whatever is read for an output is answered. -/
theorem Supplies.answered (hids : root.FaithfulIds)
    (hok : root.templates settings scopes = .ok templates)
    (hreaches : Visit.Reaches ⟨root, scopes⟩ visit)
    (htemplate : visit.template settings = .ok template) (hdag : template.dag = some dag)
    {name : String} {source : OutputSource} {reads : List OutputRead}
    (h : visit.component.Supplies settings name source reads) :
    ∀ read ∈ reads, read.Answered templates dag := by
  intro read hread
  cases h with
  | file => cases hread
  | node hgraph _ hnode =>
    rw [List.mem_singleton.1 hread]
    exact answered_of_graph hids hok hreaches htemplate hdag hgraph
      (List.mem_of_find?_eq_some hnode) _
  | map hmap _ =>
    rw [List.mem_singleton.1 hread]
    exact answered_of_map hids hok hreaches htemplate hdag hmap _
  | branches hconditional _ _ =>
    rcases List.mem_cons.1 hread with rfl | hread
    · exact answered_of_conditional hids hok hreaches htemplate hdag hconditional
        (.inl ⟨rfl, rfl⟩) _
    · obtain ⟨node, hnode, hread⟩ := Option.bind_eq_some_iff.1 (Option.mem_toList.1 hread)
      obtain ⟨port, -, rfl⟩ := Option.map_eq_some_iff.1 hread
      exact answered_of_conditional hids hok hreaches htemplate hdag hconditional
        (.inr ⟨hnode, rfl⟩) _

/-- **Where outputs come from.** When a tree is lowered in which equal identifiers denote equal
components, every template has the outputs of its component, each with its source if it has one.
A brick has a file for all of them. A composite has a source for an output exactly when a mapping
leads to it, and it is that of the last one. Each task that is named there is one of the template,
and the template that it calls puts the port out exactly when the component at its node does. -/
theorem outputs_sourced (hids : root.FaithfulIds)
    (hok : root.templates settings scopes = .ok templates) :
    ∀ template ∈ templates, ∃ component source?, root.Denotes template component ∧
      component.OutputsSourced settings template source? ∧
      ∀ dag, template.dag = some dag → ∀ name source reads,
        component.Supplies settings name source reads →
        ∀ read ∈ reads, read.Answered templates dag := by
  intro template hmem
  obtain ⟨visit, hreaches, htemplate⟩ := exists_visit_of_mem hok hmem
  have hvalid := hreaches.within.valid (valid_of_templates hok)
  obtain ⟨source?, hsourced⟩ := exists_outputsSourced hvalid htemplate
  refine ⟨visit.component, source?, ⟨hreaches.within, template_name htemplate⟩, hsourced, ?_⟩
  intro dag hdag name source reads hsupplies
  exact hsupplies.answered hids hok hreaches htemplate hdag

theorem stringGraph_faithfulIds : stringGraph.FaithfulIds := by
  refine .of_members
    (List.mem_cons_self (l := [stringChoice, stringBrick 1, stringBrick 2])) ?_ (by decide)
  show [stringBrick 1, stringChoice, stringBrick 1, stringBrick 2] ⊆
    [stringGraph, stringChoice, stringBrick 1, stringBrick 2]
  simp

/-- The choice puts out what either of its tasks puts out under the name. -/
theorem stringGraph_sourced :
    ∃ templates, stringGraph.templates .default .empty = .ok templates ∧
      ∃ template ∈ templates, template.name = stringChoice.id.text ∧
        ∃ dag, template.dag = some dag ∧ ∃ source reads,
          template.outputs = ⟨[⟨"out", none, some source.parameter⟩], []⟩ ∧
          stringChoice.Supplies .default "out" source reads ∧
          reads.map (fun read => (read.task, read.port)) =
            [("when-true", "out"), ("when-false", "out")] ∧
          ∀ read ∈ reads, read.Answered templates dag := by
  have hok : ∃ templates, stringGraph.templates .default .empty = .ok templates ∧
      ∃ template ∈ templates, template.name = stringChoice.id.text ∧
        template.dag.isSome = true := by
    rw [← exists_ok_iff]
    decide
  obtain ⟨templates, hok, template, hmem, hname, hdag⟩ := hok
  obtain ⟨dag, hdag⟩ := Option.isSome_iff_exists.1 hdag
  obtain ⟨component, source?, hdenotes, hsourced, hanswered⟩ :=
    outputs_sourced stringGraph_faithfulIds hok template hmem
  have hchoice : stringGraph.HasChild stringChoice :=
    ⟨⟨"compare", .inline stringChoice⟩, .tail _ (.head _), rfl⟩
  obtain rfl := hdenotes.unique stringGraph_faithfulIds ⟨(Within.refl _).child hchoice, hname⟩
  have hmapped := (hsourced.isSome_iff .parameter "out" (.head _)).2
    fun _ => ⟨⟨⟨"yes", "out"⟩, "out"⟩, .head _, rfl⟩
  obtain ⟨source, hsource⟩ := Option.isSome_iff_exists.1 hmapped
  obtain ⟨reads, hsupplies⟩ := hsourced.supplies "out" source hsource
  refine ⟨templates, hok, template, hmem, hname, dag, hdag, source, reads, ?_, hsupplies, ?_,
    hanswered dag hdag _ _ _ hsupplies⟩
  · rw [hsourced.outputs]
    show Manifest.Arguments.mk [OutputSource.declareParameter (source? "out") "out"] [] = _
    rw [hsource]
    rfl
  · cases hsupplies with
    | branches hconditional hlast _ =>
      obtain rfl := Implementation.conditional.inj hconditional
      obtain rfl := Option.some.inj hlast
      rfl
    | file hbrick _ => cases hbrick
    | node hgraph _ _ => cases hgraph
    | map hmap _ => cases hmap

/-! ## Loose ends -/

/-- A graph with two outputs. No mapping leads to the one, and the mapping to the other begins at a
port that the brick does not have. -/
def looseEnds : Component :=
  let graph : Graph :=
    ⟨[⟨"read", .inline (stringBrick 1)⟩], [], [⟨"in", ⟨"read", "in"⟩⟩],
      [⟨⟨"read", "missing"⟩, "stray"⟩]⟩
  { ofImplementation (.repeating 2) "graph" (.graph graph) with
    inputs := [⟨"in", .parameter⟩]
    outputs := [⟨"lost", .parameter⟩, ⟨"stray", .artifact⟩] }

/-- The one output is declared without a source, and the other with one that is not there. -/
theorem looseEnds_unsourced :
    looseEnds.FaithfulIds ∧ ∃ templates, looseEnds.templates .default .empty = .ok templates ∧
      ∃ template ∈ templates,
        template.outputs =
          ⟨[.named "lost"], [.ofReference "stray" (Placeholder.taskArtifact "read" "missing")]⟩ ∧
        ∃ dag ∈ template.dag, ∃ task ∈ dag.tasks, task.name = "read" ∧
          ∃ callee ∈ Template.ofName? templates task.template,
            "missing" ∉ callee.outputs.names .artifact := by
  refine ⟨.of_members (List.mem_cons_self (l := [stringBrick 1])) ?_ (by decide), ?_⟩
  · show [stringBrick 1] ⊆ [looseEnds, stringBrick 1]
    exact List.subset_cons_self _ _
  · rw [← exists_ok_iff]
    decide

end Component

end Pipeline
