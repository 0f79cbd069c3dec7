/-
Containers: where the variables and mounts in the template of a brick come from.

Only a brick has a container (`Component.exists_brick`). The variables of its
container are literal ones, which have no secret, and then one for each secret
input, which shows what is bound there; so a variable with a secret names the
input that it was read from. A mount shows the volume of the input that its
argument names, whatever the type of that input, since an argument may say itself
that it mounts one.
-/
import Pipeline.Proofs.ScopeReads

set_option autoImplicit false

namespace Pipeline

open Manifest (Container EnvVar SecretKey Template VolumeMount)

/-! ## Secrets -/

/-- The names of the secret inputs, in order. -/
def Component.secretInputs (component : Component) : List String :=
  (component.inputs.filter (·.type = .envSecret)).map Port.name

/-- The names of the variables that are read from secrets, in order. -/
def Manifest.Container.secretNames (container : Container) : List String :=
  (container.env.filter (·.secret.isSome)).map EnvVar.name

namespace SecretScope

variable {secrets : SecretScope} {inputs : List Port} {vars : List EnvVar}

/-- Each variable shows the secret at one of the secret inputs. -/
theorem exists_input_of_mem (h : secrets.variables inputs = .ok vars) {var : EnvVar}
    (hvar : var ∈ vars) :
    ⟨var.name, .envSecret⟩ ∈ inputs ∧
      ∃ secret, secrets.get? var.name = some secret ∧ var.secret = some secret := by
  obtain ⟨⟨name, type⟩, hport, hresult⟩ := (mem_results_iff h).1 hvar
  rw [List.mem_filter, decide_eq_true_eq] at hport
  obtain ⟨hport, rfl⟩ := hport
  cases hsecret : secrets.get? name with
  | none =>
    simp only [hsecret] at hresult
    cases hresult
  | some secret =>
    simp only [hsecret] at hresult
    obtain rfl := Except.ok.inj hresult
    exact ⟨hport, secret, hsecret, rfl⟩

/-- There is one variable for each secret input. -/
theorem names_variables (h : secrets.variables inputs = .ok vars) :
    vars.map EnvVar.name = (inputs.filter (·.type = .envSecret)).map Port.name := by
  refine (map_eq_of_mapM (fun port var hresult => ?_) h).symm
  cases hsecret : secrets.get? port.name with
  | none =>
    rw [hsecret] at hresult
    cases hresult
  | some secret =>
    rw [hsecret] at hresult
    obtain rfl := Except.ok.inj hresult
    rfl

end SecretScope

/-! ## Volumes -/

/-- A mount shows the volume that is bound to the input that is mounted. -/
theorem Argument.exists_mounted {argument : Argument} {component : Component}
    {volumes : VolumeScope} {rendered : RenderedArgument}
    (h : argument.render component volumes = .ok rendered) {mount : VolumeMount}
    (hmount : rendered.mount? = some mount) :
    ∃ name, argument.mounted? component = some name ∧ volumes.get? name = some mount.name := by
  cases hmounted : argument.mounted? component with
  | none =>
    obtain ⟨outcome, houtcome⟩ := render_of_not_mounted hmounted
    rw [houtcome] at h
    obtain ⟨text, -, rfl⟩ := map_eq_ok.1 h
    cases hmount
  | some name =>
    rw [render_of_mounted hmounted] at h
    cases hbound : volumes.get? name with
    | none =>
      rw [hbound] at h
      cases h
    | some volume =>
      rw [hbound] at h
      obtain rfl := Except.ok.inj h
      obtain rfl := Option.some.inj hmount
      exact ⟨name, rfl, hbound⟩

/-! ## Templates -/

namespace Component

variable {component : Component} {settings : Settings} {scopes : Scopes} {template : Template}
variable {container : Container}

/-- Composites become templates of tasks, so a template with a container is that of a brick. -/
theorem exists_brick (h : component.template settings scopes = .ok template)
    (hcontainer : template.container = some container) :
    ∃ brick, component.implementation = .brick brick ∧
      brick.template component scopes.secrets scopes.volumes settings.artifactRoot =
        .ok template := by
  unfold Component.template at h
  cases himplementation : component.implementation with
  | brick brick =>
    rw [himplementation] at h
    exact ⟨brick, rfl, h⟩
  | any =>
    rw [himplementation] at h
    cases h
  | graph block =>
    rw [himplementation] at h
    obtain ⟨_, _, -, -, rfl⟩ := Graph.template_eq_ok.1 h
    cases hcontainer
  | map block =>
    rw [himplementation] at h
    obtain ⟨_, _, _, -, -, -, rfl⟩ := MapBlock.template_eq_ok.1 h
    cases hcontainer
  | conditional block =>
    rw [himplementation] at h
    obtain ⟨_, _, _, _, _, -, -, -, -, -, -, rfl⟩ := Conditional.template_eq_ok.1 h
    cases hcontainer

/-- The variables that are read from secrets are named as the secret inputs, one for each. -/
theorem secretNames_of_template (h : component.template settings scopes = .ok template)
    (hcontainer : template.container = some container) :
    container.secretNames = component.secretInputs := by
  obtain ⟨brick, -, h⟩ := exists_brick h hcontainer
  obtain ⟨rendered, vars, outputs, -, hvars, -, rfl⟩ := Brick.template_eq_ok.1 h
  obtain rfl := Option.some.inj hcontainer
  -- No literal variable has a secret, and every other one has.
  have hliterals : (brick.container.env.entries.map fun entry : String × String =>
      EnvVar.literal entry.1 entry.2).filter (·.secret.isSome) = [] := by
    rw [List.filter_eq_nil_iff]
    intro var hvar
    obtain ⟨entry, -, rfl⟩ := List.mem_map.1 hvar
    exact Bool.false_ne_true
  have hsecrets : vars.filter (·.secret.isSome) = vars := by
    rw [List.filter_eq_self]
    intro var hvar
    obtain ⟨-, secret, -, hsecret⟩ := SecretScope.exists_input_of_mem hvars hvar
    rw [hsecret]
    rfl
  rw [Manifest.Container.secretNames, List.filter_append, hliterals, hsecrets, List.nil_append,
    SecretScope.names_variables hvars, secretInputs]

/-- A variable that is read from a secret is named as a secret input, and shows what is bound
there. -/
theorem secret_of_mem_env (h : component.template settings scopes = .ok template)
    (hcontainer : template.container = some container) {var : EnvVar} (hvar : var ∈ container.env)
    {secret : SecretKey} (hsecret : var.secret = some secret) :
    ⟨var.name, .envSecret⟩ ∈ component.inputs ∧ scopes.secrets.get? var.name = some secret := by
  obtain ⟨brick, -, h⟩ := exists_brick h hcontainer
  obtain ⟨rendered, vars, outputs, -, hvars, -, rfl⟩ := Brick.template_eq_ok.1 h
  obtain rfl := Option.some.inj hcontainer
  rcases List.mem_append.1 hvar with hliteral | hvar
  · obtain ⟨entry, -, rfl⟩ := List.mem_map.1 hliteral
    cases hsecret
  · obtain ⟨hdeclared, bound, hbound, heq⟩ := SecretScope.exists_input_of_mem hvars hvar
    obtain rfl := Option.some.inj (heq.symm.trans hsecret)
    exact ⟨hdeclared, hbound⟩

/-- A mount shows a volume that is bound to some port. -/
theorem volume_of_mem_mounts (h : component.template settings scopes = .ok template)
    (hcontainer : template.container = some container) {mount : VolumeMount}
    (hmount : mount ∈ container.volumeMounts) :
    ∃ port, scopes.volumes.get? port = some mount.name := by
  obtain ⟨brick, -, h⟩ := exists_brick h hcontainer
  obtain ⟨rendered, vars, outputs, hrendered, -, -, rfl⟩ := Brick.template_eq_ok.1 h
  obtain rfl := Option.some.inj hcontainer
  obtain ⟨result, hresult, hmount⟩ := List.mem_filterMap.1 hmount
  obtain ⟨argument, -, hargument⟩ := (mem_results_iff hrendered).1 hresult
  obtain ⟨name, -, hbound⟩ := Argument.exists_mounted hargument hmount
  exact ⟨name, hbound⟩

end Component

end Pipeline
