/-
Scope reads: what the template of a component takes from its scopes.

The template of a composite takes nothing from them. A brick has a variable for
each of its secret inputs and a mount for each argument that is rendered as a
volume, and nothing else in its template depends on the scopes. Two templates of
the same component are therefore equal exactly when both scopes bind the same to
these inputs (`Component.template_eq_iff`): the variables and mounts show what
was bound, so a difference there is never hidden.
-/
import Pipeline.Proofs.TemplateParts

set_option autoImplicit false

namespace Pipeline

open Manifest (EnvVar Template)

/-! ## Arguments -/

namespace Argument

/-- The input whose volume an argument mounts, if it mounts one. -/
def mounted? (argument : Argument) (component : Component) : Option String :=
  match argument.source with
  | .literal _ => none
  | .port name override =>
    match (component.input? name).map (rendering override) with
    | some (.ok .volume) => some name
    | _ => none

/-- An argument that mounts a volume is rendered by the volume that is bound. -/
theorem render_of_mounted {argument : Argument} {component : Component} {name : String}
    (h : argument.mounted? component = some name) (volumes : VolumeScope) :
    argument.render component volumes =
      match volumes.get? name with
      | some volume => .ok (.mount ⟨volume, JoinedPath.join [argument.lead, name, argument.trail]⟩)
      | none => fault (.unboundVolume name) := by
  unfold mounted? at h
  unfold render
  cases hsource : argument.source with
  | literal value =>
    rw [hsource] at h
    cases h
  | port port override =>
    simp only [hsource] at h ⊢
    rw [Component.input]
    cases hinput : component.input? port with
    | none =>
      rw [hinput] at h
      cases h
    | some declared =>
      rw [hinput, Option.map_some] at h
      -- The argument mounts a volume, so it is rendered as one.
      show (rendering override declared >>= _) = _
      cases hrendering : rendering override declared with
      | error error =>
        rw [hrendering] at h
        cases h
      | ok kind =>
        rw [hrendering] at h
        cases kind with
        | parameter => cases h
        | artifact => cases h
        | volume =>
          obtain rfl : port = name := Option.some.inj h
          rfl

/-- Any other argument is rendered as a text that the scopes have no part in. -/
theorem render_of_not_mounted {argument : Argument} {component : Component}
    (h : argument.mounted? component = none) :
    ∃ outcome : Lowered String, ∀ volumes : VolumeScope,
      argument.render component volumes = outcome.map RenderedArgument.text := by
  unfold mounted? at h
  unfold render
  cases hsource : argument.source with
  | literal value => exact ⟨.ok (argument.decorate value), fun volumes => rfl⟩
  | port port override =>
    simp only [hsource] at h ⊢
    rw [Component.input]
    cases hinput : component.input? port with
    | none => exact ⟨fault (.unknownPort .input port), fun volumes => rfl⟩
    | some declared =>
      rw [hinput, Option.map_some] at h
      show ∃ outcome : Lowered String, ∀ volumes : VolumeScope,
        (rendering override declared >>= _) = outcome.map RenderedArgument.text
      cases hrendering : rendering override declared with
      | error error => exact ⟨.error error, fun volumes => rfl⟩
      | ok kind =>
        rw [hrendering] at h
        cases kind with
        | parameter =>
          exact ⟨.ok (argument.decorate (Placeholder.inputParameter port)), fun volumes => rfl⟩
        | artifact =>
          exact ⟨.ok (argument.decorate (Placeholder.inputArtifactPath port)), fun volumes => rfl⟩
        | volume => cases h

/-- An argument is rendered alike exactly when the volume that it mounts is the same. -/
theorem render_eq_iff {argument : Argument} {component : Component} {left right : VolumeScope} :
    argument.render component left = argument.render component right ↔
      ∀ name, argument.mounted? component = some name → left.get? name = right.get? name := by
  cases h : argument.mounted? component with
  | none =>
    obtain ⟨outcome, houtcome⟩ := render_of_not_mounted h
    rw [houtcome, houtcome]
    simp
  | some name =>
    rw [render_of_mounted h, render_of_mounted h]
    -- The mount shows the volume that is bound, and an unbound one gives no mount.
    cases hleft : left.get? name <;> cases hright : right.get? name <;>
      simp [fault, hleft, hright]

/-- Whatever the scopes, an argument gives the same text, or else no text. -/
theorem text?_of_render {argument : Argument} {component : Component} {left right : VolumeScope}
    {rendered rendered' : RenderedArgument} (hleft : argument.render component left = .ok rendered)
    (hright : argument.render component right = .ok rendered') :
    rendered.text? = rendered'.text? := by
  cases h : argument.mounted? component with
  | none =>
    obtain ⟨outcome, houtcome⟩ := render_of_not_mounted h
    rw [houtcome] at hleft hright
    rw [Except.ok.inj (hleft.symm.trans hright)]
  | some name =>
    -- Both are mounts.
    have hmount : ∀ {volumes : VolumeScope} {result : RenderedArgument},
        argument.render component volumes = .ok result → result.text? = none := by
      intro volumes result hresult
      rw [render_of_mounted h] at hresult
      cases hbound : volumes.get? name with
      | none =>
        rw [hbound] at hresult
        cases hresult
      | some volume =>
        rw [hbound] at hresult
        cases hresult
        rfl
    rw [hmount hleft, hmount hright]

end Argument

namespace RenderedArgument

variable {left right : List RenderedArgument}

/-- Arguments of which the texts are the same at every place. -/
def SameTexts (left right : List RenderedArgument) : Prop :=
  List.Forall₂ (fun rendered rendered' : RenderedArgument => rendered.text? = rendered'.text?)
    left right

theorem SameTexts.filterMap_text? (h : SameTexts left right) :
    left.filterMap text? = right.filterMap text? := by
  induction h with
  | nil => rfl
  | cons hfirst _ ih => rw [List.filterMap_cons, List.filterMap_cons, hfirst, ih]

/-- Where the texts are the same, the mounts tell all the rest. -/
theorem SameTexts.filterMap_mount?_eq_iff (h : SameTexts left right) :
    left.filterMap mount? = right.filterMap mount? ↔ left = right := by
  induction h with
  | nil => simp
  | @cons first first' _ _ hfirst _ ih =>
    cases first with
    | text value =>
      cases first' with
      | text value' =>
        obtain rfl : value = value' := Option.some.inj hfirst
        rw [List.filterMap_cons_none rfl, List.filterMap_cons_none rfl, ih, List.cons.injEq]
        exact (and_iff_right rfl).symm
      | mount _ => cases hfirst
    | mount _ =>
      cases first' with
      | text _ => cases hfirst
      | mount _ => simp [mount?, ih]

end RenderedArgument

/-! ## Secrets -/

/-- The variables of secrets are the same exactly when the secrets are. -/
theorem SecretScope.variables_eq_iff {left right : SecretScope} {inputs : List Port}
    {vars vars' : List EnvVar} (hleft : left.variables inputs = .ok vars)
    (hright : right.variables inputs = .ok vars') :
    vars = vars' ↔
      ∀ port ∈ inputs, port.type = .envSecret → left.get? port.name = right.get? port.name := by
  rw [mapM_eq_iff hleft hright]
  simp only [List.mem_filter, decide_eq_true_eq, and_imp]
  refine forall₃_congr fun port _ _ => ?_
  -- A variable shows its secret, and a secret that is not bound gives none.
  cases left.get? port.name <;> cases right.get? port.name <;> simp [fault, EnvVar.ofSecret]

/-! ## Components -/

/-- The inputs whose volumes a brick mounts, in the order of its arguments. -/
def Brick.mounted (brick : Brick) (component : Component) : List String :=
  brick.args.filterMap fun argument : Argument => argument.mounted? component

/-- Two scopes bind the same to whatever the template of the component takes from them: to the
secret inputs of a brick, and to the inputs whose volumes it mounts. -/
def Component.ReadsAlike (component : Component) (left right : Scopes) : Prop :=
  ∀ brick, component.implementation = .brick brick →
    (∀ port ∈ component.inputs, port.type = .envSecret →
      left.secrets.get? port.name = right.secrets.get? port.name) ∧
    ∀ name ∈ brick.mounted component, left.volumes.get? name = right.volumes.get? name

/-- The templates of a brick under two scopes. -/
theorem Brick.template_eq_iff {brick : Brick} {component : Component} {root : String}
    {secrets secrets' : SecretScope} {volumes volumes' : VolumeScope} {left right : Template}
    (hleft : brick.template component secrets volumes root = .ok left)
    (hright : brick.template component secrets' volumes' root = .ok right) :
    left = right ↔
      (∀ port ∈ component.inputs, port.type = .envSecret →
        secrets.get? port.name = secrets'.get? port.name) ∧
      ∀ name ∈ brick.mounted component, volumes.get? name = volumes'.get? name := by
  obtain ⟨rendered, vars, outputs, hrendered, hvars, houtputs, rfl⟩ := template_eq_ok.1 hleft
  obtain ⟨rendered', vars', outputs', hrendered', hvars', houtputs', rfl⟩ := template_eq_ok.1 hright
  -- The outputs are the same in any case, and so are the texts among the arguments.
  obtain rfl : outputs = outputs' := Except.ok.inj (houtputs.symm.trans houtputs')
  have htexts : RenderedArgument.SameTexts rendered rendered' :=
    forall₂_of_mapM (fun _ _ _ => Argument.text?_of_render) hrendered hrendered'
  have hmounts : rendered = rendered' ↔
      ∀ name ∈ brick.mounted component, volumes.get? name = volumes'.get? name := by
    rw [mapM_eq_iff hrendered hrendered']
    simp only [Argument.render_eq_iff, Brick.mounted, List.mem_filterMap]
    constructor
    · rintro h name ⟨argument, hargument, hname⟩
      exact h argument hargument name hname
    · intro h argument hargument name hname
      exact h name ⟨argument, hargument, hname⟩
  rw [← hmounts, ← SecretScope.variables_eq_iff hvars hvars', ← htexts.filterMap_mount?_eq_iff]
  simp [Template.ofContainer, htexts.filterMap_text?]

/-- **What a template takes from its scopes.** Two templates of the same component are equal exactly
when the scopes bind the same to what it reads. -/
theorem Component.template_eq_iff {component : Component} {settings : Settings}
    {scopes scopes' : Scopes} {left right : Template}
    (hleft : component.template settings scopes = .ok left)
    (hright : component.template settings scopes' = .ok right) :
    left = right ↔ component.ReadsAlike scopes scopes' := by
  unfold Component.template at hleft hright
  unfold ReadsAlike
  cases himplementation : component.implementation <;> rw [himplementation] at hleft hright
  case brick brick =>
    rw [Brick.template_eq_iff hleft hright]
    simp
  -- A composite does not look at its scopes.
  all_goals simpa using Except.ok.inj (hleft.symm.trans hright)

end Pipeline
