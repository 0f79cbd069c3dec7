/-
Rendered arguments: the container of a brick, argument by argument.

An argument of a brick shows a literal or an input, and an input is shown as its argument
says or else as its type says (`Argument.Renders`). What is shown as a volume becomes a
mount; everything else stands on the command line between the two literals of its argument.
So one list is parted into two, each in the order of the arguments (`Argument.LaidOut`).

A brick is not lowered when one of five things is missing, and only then: an input that an
argument names, a way to show it, a volume to be mounted, a secret, or the file of an output
(`Brick.Hindered`).
-/
import Pipeline.Proofs.OutputSources

set_option autoImplicit false

namespace Pipeline

open Manifest (Container EnvVar Template VolumeMount)

/-! ## What is meant -/

namespace Argument

/-- The argument shows an input in some way: as it says itself, or else as the type of the input
says. -/
def Renders (argument : Argument) (component : Component) (name : String)
    (rendering : Rendering) : Prop :=
  ∃ override port, argument.source = .port name override ∧ component.input? name = some port ∧
    override.or port.type.rendering? = some rendering

/-- What an argument puts on the command line between its literals. -/
inductive Shows (argument : Argument) (component : Component) : String → Prop where
  | literal {value : String} (hsource : argument.source = .literal value) :
      Shows argument component value
  | parameter {name : String} (hrenders : argument.Renders component name .parameter) :
      Shows argument component (Placeholder.inputParameter name)
  | artifact {name : String} (hrenders : argument.Renders component name .artifact) :
      Shows argument component (Placeholder.inputArtifactPath name)

/-- The argument shows an input as a volume, and is mounted where the literals and the name of the
input lead to. -/
def Mounts (argument : Argument) (component : Component) (volumes : VolumeScope)
    (mount : VolumeMount) : Prop :=
  ∃ name volume, argument.Renders component name .volume ∧ volumes.get? name = some volume ∧
    mount = ⟨volume, JoinedPath.join [argument.lead, name, argument.trail]⟩

/-- Arguments in their order, each either on the command line or among the mounts. -/
inductive LaidOut (component : Component) (volumes : VolumeScope) :
    List Argument → List String → List VolumeMount → Prop where
  | nil : LaidOut component volumes [] [] []
  | text {argument : Argument} {arguments : List Argument} {value : String} {texts : List String}
      {mounts : List VolumeMount} (hshows : argument.Shows component value)
      (hrest : LaidOut component volumes arguments texts mounts) :
      LaidOut component volumes (argument :: arguments)
        ((argument.lead ++ value ++ argument.trail) :: texts) mounts
  | mount {argument : Argument} {arguments : List Argument} {mount : VolumeMount}
      {texts : List String} {mounts : List VolumeMount}
      (hmounts : argument.Mounts component volumes mount)
      (hrest : LaidOut component volumes arguments texts mounts) :
      LaidOut component volumes (argument :: arguments) texts (mount :: mounts)

/-- Why an argument cannot be rendered. -/
inductive Hindered (argument : Argument) (component : Component) (volumes : VolumeScope) :
    Prop where
  | undeclared {name : String} {override : Option Rendering}
      (hsource : argument.source = .port name override) (hinput : component.input? name = none)
  | secret {name : String} {port : Port} (hsource : argument.source = .port name none)
      (hinput : component.input? name = some port) (htype : port.type = .envSecret)
  | unbound {name : String} (hrenders : argument.Renders component name .volume)
      (hvolume : volumes.get? name = none)

end Argument

/-- Why a brick cannot be lowered. -/
inductive Brick.Hindered (brick : Brick) (component : Component) (secrets : SecretScope)
    (volumes : VolumeScope) : Prop where
  | argument {argument : Argument} (hargument : argument ∈ brick.args)
      (hhindered : argument.Hindered component volumes)
  | secret {port : Port} (hport : port ∈ component.inputs) (htype : port.type = .envSecret)
      (hsecret : secrets.get? port.name = none)
  | noResult {port : Port} (hport : port ∈ component.outputs)
      (htype : port.type ∈ [PortType.parameter, .parameterArray, .artifact])
      (hresult : brick.result? port.name = none)
  | volumeResult {port : Port} {result : BrickResult} {input : String}
      (hport : port ∈ component.outputs)
      (htype : port.type ∈ [PortType.parameter, .parameterArray, .artifact])
      (hresult : brick.result? port.name = some result) (hsource : result.source = .volume input)

/-! ## One argument -/

namespace Argument

variable {argument : Argument} {component : Component} {volumes : VolumeScope} {name : String}
variable {rendered : RenderedArgument}

theorem rendering_eq_ok {override : Option Rendering} {port : Port} {kind : Rendering} :
    rendering override port = .ok kind ↔ override.or port.type.rendering? = some kind := by
  unfold rendering
  cases override with
  | some kind' => simp
  | none => cases port.type.rendering? <;> simp [fault]

/-- An input can be shown unless it is a secret of which the argument does not say how. -/
theorem or_rendering?_eq_none {override : Option Rendering} {type : PortType} :
    override.or type.rendering? = none ↔ override = none ∧ type = .envSecret := by
  cases override <;> cases type <;> simp [PortType.rendering?]

/-- An argument for an input is rendered as the input is shown. -/
theorem render_of_port {override : Option Rendering} (hsource : argument.source = .port name override) :
    argument.render component volumes = .ok rendered ↔
      ∃ kind, argument.Renders component name kind ∧
        match kind with
        | .parameter => rendered = .text (argument.decorate (Placeholder.inputParameter name))
        | .artifact => rendered = .text (argument.decorate (Placeholder.inputArtifactPath name))
        | .volume => ∃ volume, volumes.get? name = some volume ∧
            rendered = .mount ⟨volume, JoinedPath.join [argument.lead, name, argument.trail]⟩ := by
  have hrenders : ∀ kind, argument.Renders component name kind ↔
      ∃ port, component.input? name = some port ∧ rendering override port = .ok kind := by
    intro kind
    simp [Renders, hsource, rendering_eq_ok]
  simp only [hrenders]
  unfold render
  simp only [hsource, bind_eq_ok, Component.input_eq_ok]
  constructor
  · rintro ⟨port, hport, kind, hkind, h⟩
    refine ⟨kind, ⟨port, hport, hkind⟩, ?_⟩
    cases kind with
    | parameter | artifact => exact (pure_eq_ok.1 h).symm
    | volume =>
      cases hvolume : volumes.get? name with
      | none =>
        rw [hvolume] at h
        cases h
      | some volume =>
        rw [hvolume] at h
        exact ⟨volume, rfl, (pure_eq_ok.1 h).symm⟩
  · rintro ⟨kind, ⟨port, hport, hkind⟩, h⟩
    refine ⟨port, hport, kind, hkind, ?_⟩
    cases kind with
    | parameter | artifact => exact pure_eq_ok.2 h.symm
    | volume =>
      obtain ⟨volume, hvolume, rfl⟩ := h
      simp only [hvolume]
      rfl

/-- **One argument.** It is rendered to what it shows, between its literals, or to its mount. -/
theorem render_eq_ok :
    argument.render component volumes = .ok rendered ↔
      (∃ value, argument.Shows component value ∧
        rendered = .text (argument.lead ++ value ++ argument.trail)) ∨
      ∃ mount, argument.Mounts component volumes mount ∧ rendered = .mount mount := by
  cases hsource : argument.source with
  | literal value =>
    have hrender : argument.render component volumes = .ok (.text (argument.decorate value)) := by
      unfold render
      rw [hsource]
    rw [hrender, Except.ok.injEq]
    constructor
    · rintro rfl
      exact .inl ⟨value, .literal hsource, rfl⟩
    · rintro (⟨other, hshows, rfl⟩ | ⟨mount, ⟨_, _, ⟨_, _, hport, _⟩, _⟩, rfl⟩)
      · cases hshows with
        | literal hother =>
          obtain rfl := ArgumentSource.literal.inj (hsource.symm.trans hother)
          rfl
        | parameter hrenders | artifact hrenders =>
          obtain ⟨_, _, hport, _⟩ := hrenders
          cases hsource.symm.trans hport
      · cases hsource.symm.trans hport
  | port name override =>
    have hname : ∀ {other kind}, argument.Renders component other kind → other = name := by
      rintro other kind ⟨_, _, hport, _⟩
      exact (ArgumentSource.port.inj (hport.symm.trans hsource)).1
    rw [render_of_port hsource]
    constructor
    · rintro ⟨kind, hrenders, h⟩
      cases kind with
      | parameter => exact .inl ⟨_, .parameter hrenders, h⟩
      | artifact => exact .inl ⟨_, .artifact hrenders, h⟩
      | volume =>
        obtain ⟨volume, hvolume, rfl⟩ := h
        exact .inr ⟨_, ⟨name, volume, hrenders, hvolume, rfl⟩, rfl⟩
    · rintro (⟨value, hshows, rfl⟩ | ⟨_, ⟨other, volume, hrenders, hvolume, rfl⟩, rfl⟩)
      · cases hshows with
        | literal hother => cases hsource.symm.trans hother
        | parameter hrenders =>
          obtain rfl := hname hrenders
          exact ⟨.parameter, hrenders, rfl⟩
        | artifact hrenders =>
          obtain rfl := hname hrenders
          exact ⟨.artifact, hrenders, rfl⟩
      · obtain rfl := hname hrenders
        exact ⟨.volume, hrenders, volume, hvolume, rfl⟩

/-- An argument is rendered exactly when nothing hinders it. -/
theorem exists_render_iff :
    (∃ rendered, argument.render component volumes = .ok rendered) ↔
      ¬ argument.Hindered component volumes := by
  constructor
  · rintro ⟨rendered, h⟩ hhindered
    cases hsource : argument.source with
    | literal value =>
      cases hhindered with
      | undeclared hport _ | secret hport _ _ => cases hsource.symm.trans hport
      | unbound hrenders _ =>
        obtain ⟨_, _, hport, _⟩ := hrenders
        cases hsource.symm.trans hport
    | port name override =>
      obtain ⟨kind, ⟨_, port, hport, hinput, hkind⟩, h⟩ := (render_of_port hsource).1 h
      obtain ⟨-, rfl⟩ := ArgumentSource.port.inj (hsource.symm.trans hport)
      cases hhindered with
      | undeclared hother hnone =>
        obtain ⟨rfl, -⟩ := ArgumentSource.port.inj (hsource.symm.trans hother)
        cases hinput.symm.trans hnone
      | secret hother hfound htype =>
        obtain ⟨rfl, rfl⟩ := ArgumentSource.port.inj (hsource.symm.trans hother)
        obtain rfl := Option.some.inj (hinput.symm.trans hfound)
        cases hkind.symm.trans (or_rendering?_eq_none.2 ⟨rfl, htype⟩)
      | unbound hrenders hnone =>
        obtain ⟨_, _, hother, hfound, hvolume⟩ := hrenders
        obtain ⟨rfl, rfl⟩ := ArgumentSource.port.inj (hsource.symm.trans hother)
        obtain rfl := Option.some.inj (hinput.symm.trans hfound)
        obtain rfl := Option.some.inj (hkind.symm.trans hvolume)
        obtain ⟨_, hbound, -⟩ := h
        cases hbound.symm.trans hnone
  · intro hfree
    cases hsource : argument.source with
    | literal value =>
      exact ⟨_, render_eq_ok.2 (.inl ⟨value, .literal hsource, rfl⟩)⟩
    | port name override =>
      cases hinput : component.input? name with
      | none => exact absurd (.undeclared hsource hinput) hfree
      | some port =>
        cases hkind : override.or port.type.rendering? with
        | none =>
          obtain ⟨rfl, htype⟩ := or_rendering?_eq_none.1 hkind
          exact absurd (.secret hsource hinput htype) hfree
        | some kind =>
          have hrenders : argument.Renders component name kind :=
            ⟨override, port, hsource, hinput, hkind⟩
          cases kind with
          | parameter => exact ⟨_, render_eq_ok.2 (.inl ⟨_, .parameter hrenders, rfl⟩)⟩
          | artifact => exact ⟨_, render_eq_ok.2 (.inl ⟨_, .artifact hrenders, rfl⟩)⟩
          | volume =>
            cases hvolume : volumes.get? name with
            | none => exact absurd (.unbound hrenders hvolume) hfree
            | some volume =>
              exact ⟨_, render_eq_ok.2 (.inr ⟨_, ⟨name, volume, hrenders, hvolume, rfl⟩, rfl⟩)⟩

/-- **All arguments.** They are laid out as they are rendered, one after another. -/
theorem laidOut_iff {arguments : List Argument} {texts : List String} {mounts : List VolumeMount} :
    LaidOut component volumes arguments texts mounts ↔
      ∃ rendered, arguments.mapM (fun argument : Argument => argument.render component volumes) =
          .ok rendered ∧
        texts = rendered.filterMap RenderedArgument.text? ∧
        mounts = rendered.filterMap RenderedArgument.mount? := by
  simp only [mapM_eq_ok]
  constructor
  · intro h
    induction h with
    | nil => exact ⟨[], .nil, rfl, rfl⟩
    | text hshows _ ih =>
      obtain ⟨rendered, hrendered, rfl, rfl⟩ := ih
      exact ⟨_, .cons (render_eq_ok.2 (.inl ⟨_, hshows, rfl⟩)) hrendered, rfl, rfl⟩
    | mount hmounts _ ih =>
      obtain ⟨rendered, hrendered, rfl, rfl⟩ := ih
      exact ⟨_, .cons (render_eq_ok.2 (.inr ⟨_, hmounts, rfl⟩)) hrendered, rfl, rfl⟩
  · rintro ⟨rendered, hrendered, rfl, rfl⟩
    induction hrendered with
    | nil => exact .nil
    | cons hfirst _ ih =>
      rcases render_eq_ok.1 hfirst with ⟨value, hshows, rfl⟩ | ⟨mount, hmounts, rfl⟩
      · exact .text hshows ih
      · exact .mount hmounts ih

end Argument

/-! ## Bricks -/

/-- There are variables when every secret input is bound. -/
theorem SecretScope.exists_variables_iff {secrets : SecretScope} {inputs : List Port} :
    (∃ vars, secrets.variables inputs = .ok vars) ↔
      ∀ port ∈ inputs, port.type = .envSecret → secrets.get? port.name ≠ none := by
  rw [SecretScope.variables, exists_mapM_iff]
  simp only [List.mem_filter, decide_eq_true_eq, and_imp]
  refine forall₃_congr fun port _ _ => ?_
  cases secrets.get? port.name <;> simp [fault]

namespace Brick

variable {brick : Brick} {component : Component} {secrets : SecretScope} {volumes : VolumeScope}
variable {root : String}

/-- There are outputs when each that a task can pass on has a file. -/
theorem exists_outputInterface_iff {ports : List Port} :
    (∃ outputs, brick.outputInterface ports = .ok outputs) ↔
      ∀ port ∈ ports, port.type ∈ [PortType.parameter, .parameterArray, .artifact] →
        ∃ path, brick.resultFile port = .ok path := by
  induction ports with
  | nil => simp [outputInterface]
  | cons port ports ih =>
    rw [List.forall_mem_cons, ← ih, outputInterface]
    cases htype : port.type
    case volume | envSecret => simp
    case parameter | parameterArray | artifact =>
      simp only [bind_eq_ok]
      constructor
      · rintro ⟨_, path, hpath, rest, hrest, -⟩
        exact ⟨fun _ => ⟨path, hpath⟩, rest, hrest⟩
      · rintro ⟨hfile, rest, hrest⟩
        obtain ⟨path, hpath⟩ := hfile (by decide)
        exact ⟨_, path, hpath, rest, hrest, rfl⟩

/-- An output has a file unless its first result is a volume, or there is none. -/
theorem exists_resultFile_iff {port : Port} :
    (∃ path, brick.resultFile port = .ok path) ↔
      brick.result? port.name ≠ none ∧
        ∀ result, brick.result? port.name = some result → ∀ input, result.source ≠ .volume input := by
  rw [resultFile]
  cases brick.result? port.name with
  | none => simp [fault]
  | some result =>
    obtain ⟨name, source⟩ := result
    cases source <;> simp [fault]

/-- A brick is lowered exactly when nothing hinders it. -/
theorem exists_template_iff :
    (∃ template, brick.template component secrets volumes root = .ok template) ↔
      ¬ brick.Hindered component secrets volumes := by
  have hparts : (∃ template, brick.template component secrets volumes root = .ok template) ↔
      (∃ rendered, brick.args.mapM (fun argument : Argument => argument.render component volumes) =
          .ok rendered) ∧
        (∃ vars, secrets.variables component.inputs = .ok vars) ∧
        ∃ outputs, brick.outputInterface component.outputs = .ok outputs := by
    simp only [template_eq_ok]
    constructor
    · rintro ⟨_, rendered, vars, outputs, hrendered, hvars, houtputs, -⟩
      exact ⟨⟨rendered, hrendered⟩, ⟨vars, hvars⟩, outputs, houtputs⟩
    · rintro ⟨⟨rendered, hrendered⟩, ⟨vars, hvars⟩, outputs, houtputs⟩
      exact ⟨_, rendered, vars, outputs, hrendered, hvars, houtputs, rfl⟩
  rw [hparts, exists_mapM_iff, SecretScope.exists_variables_iff, exists_outputInterface_iff]
  simp only [Argument.exists_render_iff, exists_resultFile_iff]
  constructor
  · rintro ⟨harguments, hsecrets, houtputs⟩ hhindered
    cases hhindered with
    | argument hargument h => exact harguments _ hargument h
    | secret hport htype hnone => exact hsecrets _ hport htype hnone
    | noResult hport htype hnone => exact (houtputs _ hport htype).1 hnone
    | volumeResult hport htype hresult hsource =>
      exact (houtputs _ hport htype).2 _ hresult _ hsource
  · intro hfree
    refine ⟨fun argument hargument h => ?_, fun port hport htype hnone => ?_,
      fun port hport htype => ⟨fun hnone => ?_, fun result hresult input hsource => ?_⟩⟩
    · exact hfree (.argument hargument h)
    · exact hfree (.secret hport htype hnone)
    · exact hfree (.noResult hport htype hnone)
    · exact hfree (.volumeResult hport htype hresult hsource)

/-- **Every argument once, and in its place.** A brick fails to be lowered exactly when something
hinders it. Otherwise its arguments are laid out in the container, on the command line and among the
mounts, and in no other way. -/
theorem arguments_laidOut (brick : Brick) (component : Component) (secrets : SecretScope)
    (volumes : VolumeScope) (root : String) :
    ((∃ error, brick.template component secrets volumes root = .error error) ↔
      brick.Hindered component secrets volumes) ∧
    ∀ template, brick.template component secrets volumes root = .ok template →
      ∃ container, template.container = some container ∧
        ∀ texts mounts, Argument.LaidOut component volumes brick.args texts mounts ↔
          texts = container.args ∧ mounts = container.volumeMounts := by
  constructor
  · rw [← not_iff_not, ← exists_template_iff]
    cases brick.template component secrets volumes root <;> simp
  · intro template h
    obtain ⟨rendered, vars, outputs, hrendered, -, -, rfl⟩ := template_eq_ok.1 h
    refine ⟨_, rfl, fun texts mounts => ?_⟩
    rw [Argument.laidOut_iff]
    constructor
    · rintro ⟨rendered', hrendered', htexts, hmounts⟩
      obtain rfl := Except.ok.inj (hrendered.symm.trans hrendered')
      exact ⟨htexts, hmounts⟩
    · rintro ⟨rfl, rfl⟩
      exact ⟨rendered, hrendered, rfl, rfl⟩

/-- A brick that shows a literal, a volume, an artifact, and a secret that is shown as a text. -/
def mixed : Brick where
  container := .ofImage "alpine"
  args :=
    [.literal "run", { Argument.port "disk" with leading := some "/mnt/" },
     ⟨.port "doc" none, some "--in=", some "/index"⟩, (Argument.port "key").rendered .parameter]
  results := []

/-- The component of the brick. -/
def mixedComponent : Component :=
  { Component.ofImplementation (.repeating 1) "mixed" (.brick mixed) with
    inputs := [⟨"doc", .artifact⟩, ⟨"disk", .volume⟩, ⟨"key", .envSecret⟩] }

/-- With a volume and a secret the brick is lowered; without a volume it is not. -/
theorem mixed_laidOut :
    (∃ template container,
      mixed.template mixedComponent (.ofList [("key", ⟨"store", "key"⟩)])
        (.ofList [("disk", "v1")]) "/tmp" = .ok template ∧
      template.container = some container ∧
      container.args =
        ["run", "--in=" ++ Placeholder.inputArtifactPath "doc" ++ "/index",
          Placeholder.inputParameter "key"] ∧
      container.volumeMounts = [⟨"v1", "/mnt/disk"⟩]) ∧
    ∃ error, mixed.template mixedComponent (.ofList [("key", ⟨"store", "key"⟩)]) .empty "/tmp" =
      .error error := by
  have hok : ∃ template, mixed.template mixedComponent (.ofList [("key", ⟨"store", "key"⟩)])
      (.ofList [("disk", "v1")]) "/tmp" = .ok template ∧ template.dag = none := by
    rw [← exists_ok_iff]
    decide
  have hshown : ∀ (argument : Argument) (name : String) (kind : Rendering),
      argument.source = .port name none →
      (mixedComponent.input? name).bind (fun port => port.type.rendering?) = some kind →
      argument.Renders mixedComponent name kind := by
    intro argument name kind hsource hkind
    obtain ⟨port, hinput, hkind⟩ := Option.bind_eq_some_iff.1 hkind
    exact ⟨none, port, hsource, hinput, hkind⟩
  constructor
  · obtain ⟨template, hok, -⟩ := hok
    obtain ⟨container, hcontainer, hlaid⟩ :=
      (arguments_laidOut mixed mixedComponent _ _ _).2 template hok
    have hmount : Argument.Mounts { Argument.port "disk" with leading := some "/mnt/" }
        mixedComponent (.ofList [("disk", "v1")]) ⟨"v1", "/mnt/disk"⟩ :=
      ⟨"disk", "v1", hshown _ _ _ rfl rfl, by decide, by decide⟩
    have hkey : ((Argument.port "key").rendered .parameter).Renders mixedComponent "key"
        .parameter :=
      ⟨some .parameter, _, rfl, rfl, rfl⟩
    obtain ⟨hargs, hmounts⟩ := (hlaid _ _).1 <|
      .text (.literal rfl) <| .mount hmount <| .text (.artifact (hshown _ "doc" _ rfl rfl)) <|
      .text (.parameter hkey) .nil
    refine ⟨template, container, hok, hcontainer, hargs.symm.trans ?_, hmounts.symm⟩
    decide
  · refine (arguments_laidOut mixed mixedComponent _ _ _).1.2 ?_
    exact .argument (.tail _ (.head _)) (.unbound (hshown _ "disk" _ rfl rfl) rfl)

end Brick

end Pipeline
