/-
Seeding: what the values of a job bind before its root is lowered.

Values are given one after another, each to an input that is declared and has no
value yet. What one value can do to a seed is said once (`Seed.Gives`), and what
each of these steps keeps is kept by all values together
(`Seed.giveAll_invariant`). Two things are kept here: every volume that is bound is
declared, under a name that no other declaration has, and every secret that is
bound was denoted by a value for a secret input.

Only the draft of the manifest stands between the seed and the manifest, and it
takes the volumes as they are (`Job.exists_seed`).
-/
import Pipeline.Lowering.Workflow
import Pipeline.Proofs.CallGraph

set_option autoImplicit false

namespace Pipeline

open Manifest (SecretKey Template Volume Workflow)

namespace Seed

/-! ## One value -/

/-- What a value for a port does to a seed, by the type of the port. -/
inductive Gives (seed : Seed) : Port → Payload → Seed → Prop where
  /-- A value for an artifact has no effect. -/
  | artifact {port : Port} {payload : Payload} (htype : port.type = .artifact) :
      Gives seed port payload seed
  | text {port : Port} {value : String} (htype : port.type.isParameter = true) :
      Gives seed port (.text value) (seed.addArgument port.name value)
  | list {port : Port} {values : List String} (htype : port.type = .parameterArray) :
      Gives seed port (.list values)
        (seed.addArgument port.name ((Json.ofStrings values).text .compact))
  | volume {port : Port} {text : String} {volume : Volume} (htype : port.type = .volume)
      (hdenoted : denoted Volume.ofJson? text = .ok volume) :
      Gives seed port (.text text) (seed.bindVolume port.name volume)
  | secret {port : Port} {text : String} {secret : SecretKey} (htype : port.type = .envSecret)
      (hdenoted : denoted SecretKey.ofJson? text = .ok secret) :
      Gives seed port (.text text) (seed.bindSecret port.name secret)

/-- A value is accepted exactly when it can do something to the seed, and then does that. -/
theorem give_eq_ok {seed after : Seed} {port : Port} {payload : Payload} :
    seed.give port payload = .ok after ↔ seed.Gives port payload after := by
  obtain ⟨name, type⟩ := port
  constructor
  · intro h
    cases type <;> cases payload
    case parameter.text value =>
      cases h
      exact .text rfl
    case parameterArray.text value =>
      cases h
      exact .text rfl
    case parameterArray.list values =>
      cases h
      exact .list rfl
    case volume.text text =>
      obtain ⟨volume, hdenoted, rfl⟩ := map_eq_ok.1 h
      exact .volume rfl hdenoted
    case envSecret.text text =>
      obtain ⟨secret, hdenoted, rfl⟩ := map_eq_ok.1 h
      exact .secret rfl hdenoted
    -- Lists are refused by all other types, and artifacts take anything.
    case artifact.text | artifact.list =>
      cases h
      exact .artifact rfl
    all_goals cases h
  · intro h
    cases h with
    | artifact htype =>
      obtain rfl : type = .artifact := htype
      cases payload <;> rfl
    | text htype =>
      -- A string is taken by a parameter and by a list alike.
      cases type with
      | parameter | parameterArray => rfl
      | artifact | volume | envSecret => cases htype
    | list htype =>
      obtain rfl : type = .parameterArray := htype
      rfl
    | volume htype hdenoted =>
      obtain rfl : type = .volume := htype
      exact map_eq_ok.2 ⟨_, hdenoted, rfl⟩
    | secret htype hdenoted =>
      obtain rfl : type = .envSecret := htype
      exact map_eq_ok.2 ⟨_, hdenoted, rfl⟩

/-! ## All values -/

theorem targetOf_eq_ok {root : Component} {value : InputValue} {port : Port} :
    targetOf root value = .ok port ↔ root.input? value.target = some port := by
  rw [targetOf]
  cases root.input? value.target <;> simp [fault]

/-- The first value is for an input without a value, and then come the others. -/
theorem giveAll_cons_eq_ok {root : Component} {bound : List String} {seed after : Seed}
    {value : InputValue} {values : List InputValue} :
    seed.giveAll root bound (value :: values) = .ok after ↔
      ∃ port between, root.input? value.target = some port ∧ port.name ∉ bound ∧
        seed.Gives port value.payload between ∧
        between.giveAll root (port.name :: bound) values = .ok after := by
  rw [giveAll, bind_eq_ok]
  simp only [targetOf_eq_ok]
  refine exists_congr fun port => ?_
  rw [exists_and_left]
  refine and_congr_right fun _ => ?_
  by_cases hbound : port.name ∈ bound
  · rw [if_pos hbound]
    simp [hbound, fault]
  · rw [if_neg hbound]
    cases hgive : seed.give port value.payload with
    | error reason =>
      have hnone : ∀ between, ¬ seed.Gives port value.payload between := by
        intro between hgives
        rw [give_eq_ok.2 hgives] at hgive
        cases hgive
      simp [hnone, fault]
    | ok between =>
      have honly : ∀ other, seed.Gives port value.payload other ↔ between = other := by
        intro other
        rw [← give_eq_ok, hgive, Except.ok.injEq]
      simp [honly, hbound]

/-- What is kept by every value for a declared input is kept by all values. -/
theorem giveAll_invariant {root : Component} {motive : Seed → Prop} {values : List InputValue}
    (hstep : ∀ seed port after, ∀ value ∈ values, root.input? value.target = some port →
      seed.Gives port value.payload after → motive seed → motive after)
    {bound : List String} {seed after : Seed} (h : seed.giveAll root bound values = .ok after)
    (hseed : motive seed) : motive after := by
  induction values generalizing bound seed with
  | nil =>
    obtain rfl := Except.ok.inj h
    exact hseed
  | cons value values ih =>
    obtain ⟨port, between, hport, -, hgives, hrest⟩ := giveAll_cons_eq_ok.1 h
    refine ih (fun seed port after other hother => ?_) hrest ?_
    · exact hstep seed port after other (List.mem_cons_of_mem _ hother)
    · exact hstep seed port between value List.mem_cons_self hport hgives hseed

/-- No input is given two values. -/
theorem nodup_targets {root : Component} {values : List InputValue} {bound : List String}
    {seed after : Seed} (h : seed.giveAll root bound values = .ok after) :
    (values.map (·.target)).Nodup ∧ ∀ value ∈ values, value.target ∉ bound := by
  induction values generalizing bound seed with
  | nil => exact ⟨List.nodup_nil, fun _ hvalue => absurd hvalue List.not_mem_nil⟩
  | cons value values ih =>
    obtain ⟨port, between, hport, hbound, -, hrest⟩ := giveAll_cons_eq_ok.1 h
    have hname : port.name = value.target := key_of_find? hport
    rw [hname] at hbound hrest
    obtain ⟨hdistinct, hfree⟩ := ih hrest
    refine ⟨?_, fun other hother => ?_⟩
    · rw [List.map_cons, List.nodup_cons]
      refine ⟨fun hmem => ?_, hdistinct⟩
      obtain ⟨other, hother, htarget⟩ := List.mem_map.1 hmem
      exact hfree other hother (by rw [htarget]; exact List.mem_cons_self)
    · rcases List.mem_cons.1 hother with rfl | hother
      · exact hbound
      · exact fun hmem => hfree other hother (List.mem_cons_of_mem _ hmem)

/-! ## Volumes -/

/-- Whatever is bound as a volume is declared, and no name is declared twice. -/
structure DeclaresVolumes (seed : Seed) : Prop where
  distinct : (seed.volumes.map (·.name)).Nodup
  declared : ∀ port name, seed.scopes.volumes.get? port = some name →
    name ∈ seed.volumes.map (·.name)

theorem DeclaresVolumes.bindVolume {seed : Seed} (h : seed.DeclaresVolumes) (port : String)
    (volume : Volume) : (seed.bindVolume port volume).DeclaresVolumes := by
  have hbound : ∀ other name,
      (seed.bindVolume port volume).scopes.volumes.get? other = some name →
        name = volume.name ∨ name ∈ seed.volumes.map (·.name) := by
    intro other name hother
    rw [Seed.bindVolume, KeyMap.get?_insert] at hother
    by_cases hport : other = port
    · rw [if_pos hport] at hother
      exact .inl (Option.some.inj hother).symm
    · rw [if_neg hport] at hother
      exact .inr (h.declared other name hother)
  by_cases hthere : volume.name ∈ seed.volumes.map (·.name)
  -- A volume of a name that is there is bound, but not declared again.
  · have hvolumes : (seed.bindVolume port volume).volumes = seed.volumes := by
      obtain ⟨other, hother, hname⟩ := List.mem_map.1 hthere
      exact if_pos (List.any_eq_true.2 ⟨other, hother, decide_eq_true hname⟩)
    refine ⟨by rw [hvolumes]; exact h.distinct, fun other name hother => ?_⟩
    rw [hvolumes]
    rcases hbound other name hother with rfl | hname
    · exact hthere
    · exact hname
  · have hvolumes : (seed.bindVolume port volume).volumes = seed.volumes ++ [volume] := by
      refine if_neg fun hany => ?_
      obtain ⟨other, hother, hname⟩ := List.any_eq_true.1 hany
      exact hthere (List.mem_map.2 ⟨other, hother, of_decide_eq_true hname⟩)
    refine ⟨?_, fun other name hother => ?_⟩
    · rw [hvolumes, List.map_append, List.map_singleton]
      refine List.Nodup.append h.distinct (List.nodup_singleton _) ?_
      rw [List.disjoint_singleton]
      exact hthere
    · rw [hvolumes, List.map_append, List.mem_append, List.map_singleton, List.mem_singleton]
      exact (hbound other name hother).symm

theorem Gives.declaresVolumes {seed after : Seed} {port : Port} {payload : Payload}
    (h : seed.Gives port payload after) (hseed : seed.DeclaresVolumes) : after.DeclaresVolumes := by
  cases h with
  | artifact => exact hseed
  | text => exact ⟨hseed.distinct, hseed.declared⟩
  | list => exact ⟨hseed.distinct, hseed.declared⟩
  | volume => exact hseed.bindVolume _ _
  | secret => exact ⟨hseed.distinct, hseed.declared⟩

theorem declaresVolumes_of_ofValues {root : Component} {values : List InputValue} {seed : Seed}
    (h : ofValues root values = .ok seed) : seed.DeclaresVolumes := by
  refine giveAll_invariant (fun _ _ _ _ _ _ hgives => hgives.declaresVolumes) h ?_
  exact ⟨List.nodup_nil, fun _ _ hbound => nomatch hbound⟩

/-! ## Secrets -/

/-- The secret is what the one value for a secret input of the root denotes. -/
structure Supplies (root : Component) (values : List InputValue) (name : String)
    (secret : SecretKey) : Prop where
  declared : ⟨name, .envSecret⟩ ∈ root.inputs
  denoted : ∃ text, denoted SecretKey.ofJson? text = .ok secret ∧
    ∀ value, value ∈ values ∧ value.target = name ↔ value = ⟨name, .text text⟩

theorem Gives.secrets {seed after : Seed} {port : Port} {payload : Payload}
    (h : seed.Gives port payload after) {name : String} {secret : SecretKey}
    (hbound : after.scopes.secrets.get? name = some secret) :
    seed.scopes.secrets.get? name = some secret ∨
      port = ⟨name, .envSecret⟩ ∧
        ∃ text, payload = .text text ∧ Seed.denoted SecretKey.ofJson? text = .ok secret := by
  cases h with
  | artifact => exact .inl hbound
  | text => exact .inl hbound
  | list => exact .inl hbound
  | volume => exact .inl hbound
  | @secret text given htype hdenoted =>
    rw [bindSecret, KeyMap.get?_insert] at hbound
    by_cases hname : name = port.name
    · rw [if_pos hname] at hbound
      obtain rfl := Option.some.inj hbound
      obtain rfl := hname
      rw [← htype]
      exact .inr ⟨rfl, text, rfl, hdenoted⟩
    · rw [if_neg hname] at hbound
      exact .inl hbound

theorem supplies_of_ofValues {root : Component} {values : List InputValue} {seed : Seed}
    (h : ofValues root values = .ok seed) {name : String} {secret : SecretKey}
    (hbound : seed.scopes.secrets.get? name = some secret) : Supplies root values name secret := by
  -- A secret that is bound was denoted by some value, and there is no other one for its input.
  have hgiven : ∀ name secret, seed.scopes.secrets.get? name = some secret →
      ⟨name, .envSecret⟩ ∈ root.inputs ∧ ∃ text, ⟨name, .text text⟩ ∈ values ∧
        Seed.denoted SecretKey.ofJson? text = .ok secret := by
    refine giveAll_invariant
      (motive := fun seed => ∀ name secret, seed.scopes.secrets.get? name = some secret →
        ⟨name, .envSecret⟩ ∈ root.inputs ∧ ∃ text, ⟨name, .text text⟩ ∈ values ∧
          Seed.denoted SecretKey.ofJson? text = .ok secret)
      (fun between port after value hvalue hport hgives hbetween name secret hbound => ?_) h
      fun _ _ hempty => nomatch hempty
    rcases hgives.secrets hbound with hbound | ⟨rfl, text, hpayload, hdenoted⟩
    · exact hbetween name secret hbound
    · have htarget : name = value.target := key_of_find? hport
      refine ⟨List.mem_of_find?_eq_some hport, text, ?_, hdenoted⟩
      rwa [htarget, ← hpayload]
  obtain ⟨hdeclared, text, hmem, hdenoted⟩ := hgiven name secret hbound
  refine ⟨hdeclared, text, hdenoted, fun value => ⟨fun ⟨hvalue, htarget⟩ => ?_, ?_⟩⟩
  · exact List.inj_on_of_nodup_map (nodup_targets h).1 hvalue hmem htarget
  · rintro rfl
    exact ⟨hmem, rfl⟩

end Seed

/-! ## The manifest -/

/-- A job is lowered when its root is written out, its values are accepted, and its root has
templates under the scopes that these bind. -/
theorem Job.lower_eq_ok {job : Job} {settings : Settings} {workflow : Workflow} :
    job.lower settings = .ok workflow ↔
      ∃ root seed templates, job.root = .ok root ∧ Seed.ofValues root job.inputs = .ok seed ∧
        root.templates settings seed.scopes = .ok templates ∧
        (job.draft settings root seed templates).finish = workflow := by
  simp only [lower, bind_eq_ok, pure_eq_ok]
  constructor
  · rintro ⟨root, hroot, seed, hseed, templates, htemplates, hworkflow⟩
    exact ⟨root, seed, templates, hroot, hseed, htemplates, hworkflow⟩
  · rintro ⟨root, seed, templates, hroot, hseed, htemplates, hworkflow⟩
    exact ⟨root, hroot, seed, hseed, templates, htemplates, hworkflow⟩

/-- What is specified of a job besides its metadata. -/
theorem Job.spec_draft (job : Job) (settings : Settings) (root : Component) (seed : Seed)
    (templates : List Template) :
    (job.draft settings root seed templates).finish.spec =
      { entrypoint := root.id.text
        arguments := seed.arguments
        templates := Template.distinct templates
        volumes := seed.volumes
        serviceAccount := settings.serviceAccount } := by
  -- An account to run as is all that the settings add to the specification.
  rw [Job.draft]
  cases settings.serviceAccount <;> rfl

/-- A job is lowered by its values and then by its tree; the manifest has the volumes of the one and
no other templates than the other. -/
theorem Job.exists_seed {job : Job} {settings : Settings} {workflow : Workflow}
    (h : job.lower settings = .ok workflow) :
    ∃ root seed templates, job.root = .ok root ∧ Seed.ofValues root job.inputs = .ok seed ∧
      root.templates settings seed.scopes = .ok templates ∧
      workflow.spec.volumes = seed.volumes ∧
      ∀ template ∈ workflow.spec.templates, template ∈ templates := by
  obtain ⟨root, seed, templates, hroot, hseed, htemplates, rfl⟩ := Job.lower_eq_ok.1 h
  refine ⟨root, seed, templates, hroot, hseed, htemplates, ?_⟩
  rw [Job.spec_draft]
  exact ⟨rfl, fun _ => Template.mem_of_mem_distinct⟩

end Pipeline
