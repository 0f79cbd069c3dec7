/-
Interfaces: the names under which a template takes and gives values.

Tasks pass values on along two channels, as parameters and as artifacts, and what is
said of the one is said of the other in the same words. A port belongs to one of them
by its type, or to none. A template declares the ports of its component that belong to
a channel, in their order, whatever the implementation (`Component.names_of_template`).
A brick declares its outputs one by one, each with a file; a composite declares all of
them at once and then gives them their sources, and to give a source changes no name.
-/
import Pipeline.Proofs.CallGraph
import Pipeline.Proofs.WellWired

set_option autoImplicit false

namespace Pipeline

open Manifest (Arguments Artifact Parameter Template)

/-! ## Channels -/

/-- A way by which tasks pass values on. -/
inductive Channel where
  | parameter
  | artifact
  deriving DecidableEq

/-- The channel of the values of a type. Volumes and secrets are bound through scopes instead. -/
def PortType.channel? : PortType → Option Channel
  | .parameter | .parameterArray => some .parameter
  | .artifact => some .artifact
  | .volume | .envSecret => none

/-- The names that are declared or passed on a channel, in order. -/
def Manifest.Arguments.names (arguments : Arguments) : Channel → List String
  | .parameter => arguments.parameters.map Parameter.name
  | .artifact => arguments.artifacts.map Artifact.name

namespace Port

/-- The name of a port that belongs to a channel. -/
def nameOn? (channel : Channel) (port : Port) : Option String :=
  if port.type.channel? = some channel then some port.name else none

/-- The names of the ports that belong to a channel, in order. -/
def namesOn (channel : Channel) (ports : List Port) : List String :=
  ports.filterMap (nameOn? channel)

/-- The channel of the port of a name. -/
def channelOf? (ports : List Port) (name : String) : Option Channel :=
  (find? ports name).bind fun port => port.type.channel?

variable {ports : List Port} {name : String} {channel : Channel}

theorem mem_namesOn :
    name ∈ namesOn channel ports ↔
      ∃ type, ⟨name, type⟩ ∈ ports ∧ type.channel? = some channel := by
  rw [namesOn, List.mem_filterMap]
  constructor
  · rintro ⟨⟨found, type⟩, hmem, hname⟩
    by_cases hchannel : type.channel? = some channel
    · obtain rfl : found = name := by simpa [nameOn?, hchannel] using hname
      exact ⟨type, hmem, hchannel⟩
    · simp [nameOn?, hchannel] at hname
  · rintro ⟨type, hmem, hchannel⟩
    exact ⟨_, hmem, if_pos hchannel⟩

theorem mem_namesOn_of_channelOf? (h : channelOf? ports name = some channel) :
    name ∈ namesOn channel ports := by
  obtain ⟨⟨found, type⟩, hfind, hchannel⟩ := Option.bind_eq_some_iff.1 h
  obtain rfl : found = name := key_of_find? hfind
  exact mem_namesOn.2 ⟨type, List.mem_of_find?_eq_some hfind, hchannel⟩

/-- Where names are distinct, the port of a name belongs to a channel when the name is among those
of the channel. -/
theorem channelOf?_eq_some (hdistinct : (ports.map Port.name).Nodup) :
    channelOf? ports name = some channel ↔ name ∈ namesOn channel ports := by
  refine ⟨mem_namesOn_of_channelOf?, fun h => ?_⟩
  obtain ⟨type, hmem, hchannel⟩ := mem_namesOn.1 h
  exact Option.bind_eq_some_iff.2 ⟨⟨name, type⟩, find?_of_nodup hdistinct hmem, hchannel⟩

theorem namesOn_cons (channel : Channel) (port : Port) (ports : List Port) :
    namesOn channel (port :: ports) =
      if port.type.channel? = some channel then port.name :: namesOn channel ports
      else namesOn channel ports := by
  by_cases hchannel : port.type.channel? = some channel <;>
    simp [namesOn, nameOn?, hchannel]

theorem namesOn_sublist (channel : Channel) (ports : List Port) :
    (namesOn channel ports).Sublist (ports.map Port.name) := by
  induction ports with
  | nil => exact .slnil
  | cons port ports ih =>
    rw [namesOn_cons, List.map_cons]
    by_cases hchannel : port.type.channel? = some channel
    · rw [if_pos hchannel]
      exact ih.cons_cons _
    · rw [if_neg hchannel]
      exact ih.cons _

/-- What declares the ports of a channel, and no other ones, declares their names. -/
theorem map_filterMap_eq_namesOn {α : Type} {declare? : Port → Option α} {nameOf : α → String}
    (hdeclares : ∀ port, (declare? port).map nameOf = nameOn? channel port) :
    (ports.filterMap declare?).map nameOf = namesOn channel ports := by
  rw [List.map_filterMap, namesOn]
  exact List.filterMap_congr fun port _ => hdeclares port

end Port

/-! ## Inputs -/

/-- A template declares the inputs of a channel in their order. -/
theorem Component.names_inputInterface (component : Component) (root : Option String)
    (channel : Channel) :
    (component.inputInterface root).names channel = Port.namesOn channel component.inputs := by
  cases channel with
  | parameter =>
    refine Port.map_filterMap_eq_namesOn fun port => ?_
    obtain ⟨name, type⟩ := port
    cases type <;> rfl
  | artifact =>
    refine Port.map_filterMap_eq_namesOn fun port => ?_
    obtain ⟨name, type⟩ := port
    cases type <;> cases root <;> rfl

/-! ## Outputs of composites -/

namespace Manifest

/-- A change that keeps the key of what it changes keeps all keys. -/
theorem map_modifyFirst {α β : Type} {test : α → Bool} {change : α → α} {key : α → β}
    (hkeep : ∀ item, key (change item) = key item) (items : List α) :
    (modifyFirst test change items).map key = items.map key := by
  induction items with
  | nil => rfl
  | cons item items ih =>
    rw [modifyFirst]
    by_cases htest : test item = true
    · rw [if_pos htest, List.map_cons, List.map_cons, hkeep]
    · rw [if_neg htest, List.map_cons, List.map_cons, ih]

namespace Arguments

variable (arguments : Arguments) (name : String) (channel : Channel)

theorem names_modifyParameter {change : Parameter → Parameter}
    (hkeep : ∀ parameter, (change parameter).name = parameter.name) :
    (arguments.modifyParameter name change).names channel = arguments.names channel := by
  cases channel with
  | parameter => exact map_modifyFirst hkeep _
  | artifact => rfl

theorem names_modifyArtifact {change : Artifact → Artifact}
    (hkeep : ∀ artifact, (change artifact).name = artifact.name) :
    (arguments.modifyArtifact name change).names channel = arguments.names channel := by
  cases channel with
  | parameter => rfl
  | artifact => exact map_modifyFirst hkeep _

end Arguments

end Manifest

/-- A source is given to an artifact under its name. -/
def OutputSource.KeepsName (source : OutputSource) : Prop :=
  ∀ artifact, (source.artifact artifact).name = artifact.name

theorem OutputSource.KeepsName.ofTask (task port : String) :
    (OutputSource.ofTask task port).KeepsName :=
  fun _ => rfl

theorem OutputSource.KeepsName.ofBranches (expression taskTrue portTrue taskFalse : String)
    (portFalse : Option String) :
    (OutputSource.ofBranches expression taskTrue portTrue taskFalse portFalse).KeepsName :=
  fun _ => rfl

namespace Component

variable {component : Component} {source : OutputMapping → OutputSource}
variable {before outputs : Arguments} {channel : Channel}

theorem names_outputInterface (component : Component) (channel : Channel) :
    component.outputInterface.names channel = Port.namesOn channel component.outputs := by
  cases channel with
  | parameter | artifact =>
    refine Port.map_filterMap_eq_namesOn fun port => ?_
    obtain ⟨name, type⟩ := port
    cases type <;> rfl

/-- To give one output its source keeps the names. -/
theorem names_connectOutput {mapping : OutputMapping} (hkeeps : (source mapping).KeepsName)
    (h : component.connectOutput source before mapping = .ok outputs) :
    outputs.names channel = before.names channel := by
  obtain ⟨port, -, h⟩ := bind_eq_ok.1 h
  cases htype : port.type <;> rw [htype] at h
  case parameter | parameterArray =>
    cases h
    exact before.names_modifyParameter _ _ fun _ => rfl
  case artifact =>
    cases h
    exact before.names_modifyArtifact _ _ hkeeps
  case volume =>
    cases h
    rfl
  case envSecret => cases h

/-- A composite declares the outputs of a channel in their order. -/
theorem names_connectOutputs {mappings : List OutputMapping}
    (hkeeps : ∀ mapping, (source mapping).KeepsName)
    (h : component.connectOutputs source mappings = .ok outputs) :
    outputs.names channel = Port.namesOn channel component.outputs := by
  rw [← component.names_outputInterface channel]
  have hstep : ∀ state mapping next, mapping ∈ mappings →
      state.names channel = component.outputInterface.names channel →
      component.connectOutput source state mapping = .ok next →
      next.names channel = component.outputInterface.names channel :=
    fun _ mapping _ _ hnames hnext => (names_connectOutput (hkeeps mapping) hnext).trans hnames
  exact foldlM_invariant hstep rfl h

end Component

/-- A conditional declares the outputs of a channel in their order. -/
theorem Conditional.names_outputs {conditional : Conditional} {component : Component}
    {taskTrue taskFalse : String} {outputs : Arguments} {channel : Channel}
    (h : conditional.outputs component taskTrue taskFalse = .ok outputs) :
    outputs.names channel = Port.namesOn channel component.outputs := by
  rw [Conditional.outputs] at h
  by_cases hempty : conditional.outputMappings.isEmpty = true
  · rw [if_pos hempty] at h
    obtain rfl := Except.ok.inj h
    exact component.names_outputInterface channel
  · rw [if_neg hempty] at h
    obtain ⟨expression, -, h⟩ := bind_eq_ok.1 h
    exact component.names_connectOutputs (fun _ => .ofBranches _ _ _ _ _) h

/-! ## Outputs of bricks -/

/-- A brick declares the outputs of a channel in their order. -/
theorem Brick.names_outputInterface {brick : Brick} {ports : List Port} {outputs : Arguments}
    {channel : Channel} (h : brick.outputInterface ports = .ok outputs) :
    outputs.names channel = Port.namesOn channel ports := by
  induction ports generalizing outputs with
  | nil =>
    cases h
    cases channel <;> rfl
  | cons port ports ih =>
    obtain ⟨name, type⟩ := port
    rw [Brick.outputInterface] at h
    cases type
    case volume | envSecret => exact ih h
    case parameter | parameterArray | artifact =>
      obtain ⟨path, -, h⟩ := bind_eq_ok.1 h
      obtain ⟨rest, hrest, h⟩ := bind_eq_ok.1 h
      obtain rfl := pure_eq_ok.1 h
      have hnames := ih hrest
      -- The port stands in front of the names of its own channel, and leaves the other one alone.
      cases channel
      all_goals simpa [Manifest.Arguments.names, Port.namesOn, Port.nameOn?, PortType.channel?,
        Manifest.Artifact.atPath] using hnames

/-! ## Templates -/

namespace Component

variable {component : Component} {settings : Settings} {scopes : Scopes} {template : Template}

/-- **The interface of a template.** A template declares the inputs and the outputs of its component
that belong to a channel, in their order, and nothing else on it. -/
theorem names_of_template (h : component.template settings scopes = .ok template)
    (channel : Channel) :
    template.inputs.names channel = Port.namesOn channel component.inputs ∧
      template.outputs.names channel = Port.namesOn channel component.outputs := by
  unfold Component.template at h
  cases himplementation : component.implementation <;> rw [himplementation] at h
  case brick block =>
    obtain ⟨_, _, outputs, -, -, houtputs, rfl⟩ := Brick.template_eq_ok.1 h
    exact ⟨component.names_inputInterface _ _, block.names_outputInterface houtputs⟩
  case graph block =>
    obtain ⟨_, outputs, -, houtputs, rfl⟩ := Graph.template_eq_ok.1 h
    exact ⟨component.names_inputInterface _ _,
      component.names_connectOutputs (fun _ => .ofTask _ _) houtputs⟩
  case map block =>
    obtain ⟨_, _, outputs, -, -, houtputs, rfl⟩ := MapBlock.template_eq_ok.1 h
    exact ⟨component.names_inputInterface _ _,
      component.names_connectOutputs (fun _ => .ofTask _ _) houtputs⟩
  case conditional block =>
    obtain ⟨_, _, _, _, outputs, -, -, -, -, -, houtputs, rfl⟩ := Conditional.template_eq_ok.1 h
    exact ⟨component.names_inputInterface _ _, block.names_outputs houtputs⟩
  case any => cases h

variable {root child : Component} {templates : List Template}

/-- **The interface behind a name.** Under the identifier of a component in the tree there is a
template, and its interface is that of the component. Which place in the tree it was made for does
not matter to that. -/
theorem exists_interface (hids : root.FaithfulIds)
    (hok : root.templates settings scopes = .ok templates) (hchild : root.Within child) :
    ∃ callee, Template.ofName? templates child.id.text = some callee ∧ ∀ channel,
      callee.inputs.names channel = Port.namesOn channel child.inputs ∧
        callee.outputs.names channel = Port.namesOn channel child.outputs := by
  obtain ⟨repeats, hrepeats, rfl⟩ := templates_eq_ok hok
  have hname : child.id.text ∈ (Template.distinct repeats).map Template.name := by
    rw [Template.mem_names_distinct, mem_names_iff hrepeats]
    exact ⟨child, hchild, rfl⟩
  obtain ⟨named, hnamed, hid⟩ := List.mem_map.1 hname
  obtain ⟨callee, hcallee⟩ := Template.exists_ofName? hnamed
  rw [hid] at hcallee
  obtain ⟨visit, hreaches, htemplate⟩ := exists_visit_of_mem hok (Template.mem_of_ofName? hcallee)
  have hdenotes : root.Denotes callee visit.component := ⟨hreaches.within, template_name htemplate⟩
  have hsame := hdenotes.unique hids ⟨hchild, Template.name_of_ofName? hcallee⟩
  refine ⟨callee, hcallee, fun channel => ?_⟩
  rw [← hsame]
  exact names_of_template htemplate channel

end Component

end Pipeline
