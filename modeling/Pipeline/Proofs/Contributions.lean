/-
Contributions: what each value of a job gives, whatever the other values are.

Whether a value fits, and what it does to a seed, is a matter of the input that it is
for and of its payload. So each value has a contribution of its own, and what a job
seeds is the sum of these: values are accepted exactly when their inputs are distinct
and each of them has a contribution (`Seed.ofValues_eq_ok`). The parts of the sum can
be read off the list of values, each part from the values that give to it
(`Seed.Gathers`): the arguments in their order, and the scopes as the maps of what is
given for each input.
-/
import Pipeline.Proofs.Handover
import Pipeline.Proofs.Seeding

set_option autoImplicit false

namespace Pipeline

open Manifest (Arguments SecretKey Volume)

/-! ## One value -/

/-- What a value gives to a workflow. -/
inductive Contribution where
  /-- Values for artifacts have no effect. -/
  | nothing
  | argument (value : String)
  | volume (declared : Volume)
  | secret (key : SecretKey)

namespace Contribution

/-- What a payload gives to an input of a type, if it fits. -/
def ofPayload? : PortType → Payload → Option Contribution
  | .artifact, _ => some .nothing
  | .parameter, .text value | .parameterArray, .text value => some (.argument value)
  | .parameterArray, .list values => some (.argument ((Json.ofStrings values).text .compact))
  | .volume, .text text => ((Json.parse? text).bind Volume.ofJson?).map .volume
  | .envSecret, .text text => ((Json.parse? text).bind SecretKey.ofJson?).map .secret
  | _, .list _ => none

/-- The value of an argument. -/
def argument? : Contribution → Option String
  | .argument value => some value
  | _ => none

/-- The name under which a volume is bound. -/
def volumeName? : Contribution → Option String
  | .volume declared => some declared.name
  | _ => none

/-- The key of a secret. -/
def secret? : Contribution → Option SecretKey
  | .secret key => some key
  | _ => none

end Contribution

/-- What a value gives to the workflow, if it fits the input of the root that it is for. -/
def InputValue.contribution? (root : Component) (value : InputValue) : Option Contribution :=
  (root.input? value.target).bind fun port => Contribution.ofPayload? port.type value.payload

namespace Seed

/-- A contribution is added, for an input. -/
def add (seed : Seed) (port : String) : Contribution → Seed
  | .nothing => seed
  | .argument value => seed.addArgument port value
  | .volume declared => seed.bindVolume port declared
  | .secret key => seed.bindSecret port key

/-- What a value gives is added. -/
def accept (root : Component) (seed : Seed) (value : InputValue) : Seed :=
  match value.contribution? root with
  | some contribution => seed.add value.target contribution
  | none => seed

theorem denoted_eq_ok {α : Type} {ofJson? : Json → Option α} {text : String} {result : α} :
    denoted ofJson? text = .ok result ↔ (Json.parse? text).bind ofJson? = some result := by
  rw [denoted]
  cases (Json.parse? text).bind ofJson? with
  | none => simp
  | some value => simp

/-- What a payload does to a seed is that its contribution is added. -/
theorem gives_iff {seed after : Seed} {port : Port} {payload : Payload} :
    seed.Gives port payload after ↔
      ∃ contribution, Contribution.ofPayload? port.type payload = some contribution ∧
        seed.add port.name contribution = after := by
  rw [← give_eq_ok]
  obtain ⟨name, type⟩ := port
  -- Only the text of a volume or of a secret has to be read.
  cases type <;> cases payload
  case volume.text text | envSecret.text text =>
    simp only [give, Contribution.ofPayload?, map_eq_ok, denoted_eq_ok, Option.map_eq_some_iff,
      exists_exists_and_eq_and, add]
  all_goals simp [give, Contribution.ofPayload?, add]

/-! ## All values -/

/-- The first value is for an input without a value and has a contribution, and then come the
others. -/
theorem giveAll_cons_iff {root : Component} {bound : List String} {seed after : Seed}
    {value : InputValue} {values : List InputValue} :
    seed.giveAll root bound (value :: values) = .ok after ↔
      (value.target ∉ bound ∧ (value.contribution? root).isSome) ∧
        (seed.accept root value).giveAll root (value.target :: bound) values = .ok after := by
  rw [giveAll_cons_eq_ok, InputValue.contribution?, accept, InputValue.contribution?]
  cases hport : root.input? value.target with
  | none => simp
  | some port =>
    have hname : port.name = value.target := key_of_find? hport
    cases hgiven : Contribution.ofPayload? port.type value.payload with
    | none => simp [gives_iff, hgiven]
    | some contribution => simp [gives_iff, hgiven, hname]

/-- With one more input bound, values are for unbound inputs when they were before and none of them
is for that one. -/
theorem forall_unbound_cons {p : InputValue → Prop} {target : String} {bound : List String}
    {values : List InputValue} :
    (∀ value ∈ values, value.target ∉ target :: bound ∧ p value) ↔
      target ∉ values.map (·.target) ∧ ∀ value ∈ values, value.target ∉ bound ∧ p value := by
  rw [List.mem_map]
  constructor
  · intro h
    constructor
    · rintro ⟨value, hvalue, htarget⟩
      exact (h value hvalue).1 (htarget ▸ List.mem_cons_self)
    · intro value hvalue
      obtain ⟨hunbound, hvalue⟩ := h value hvalue
      exact ⟨fun hmem => hunbound (List.mem_cons_of_mem _ hmem), hvalue⟩
  · rintro ⟨hnew, h⟩ value hvalue
    refine ⟨fun hmem => ?_, (h value hvalue).2⟩
    rcases List.mem_cons.1 hmem with htarget | hmem
    · exact hnew ⟨value, hvalue, htarget⟩
    · exact (h value hvalue).1 hmem

/-- Values are accepted when they are for distinct inputs, to which nothing was given before, and
each of them has a contribution. These are then added in order. -/
theorem giveAll_eq_ok {root : Component} {bound : List String} {seed after : Seed}
    {values : List InputValue} :
    seed.giveAll root bound values = .ok after ↔
      (values.map (·.target)).Nodup ∧
        (∀ value ∈ values, value.target ∉ bound ∧ (value.contribution? root).isSome) ∧
        values.foldl (accept root) seed = after := by
  induction values generalizing bound seed with
  | nil => simp [giveAll]
  | cons value values ih =>
    -- An input that has a value already is one of those before, or that of the first value.
    rw [giveAll_cons_iff, ih, forall_unbound_cons, List.map_cons, List.nodup_cons,
      List.forall_mem_cons, List.foldl_cons]
    tauto

/-- The values of a job are accepted when they are for distinct inputs and each of them has a
contribution, whatever their order. -/
theorem ofValues_eq_ok {root : Component} {seed : Seed} {values : List InputValue} :
    ofValues root values = .ok seed ↔
      (values.map (·.target)).Nodup ∧ (∀ value ∈ values, (value.contribution? root).isSome) ∧
        values.foldl (accept root) empty = seed := by
  rw [ofValues, giveAll_eq_ok]
  simp only [List.not_mem_nil, not_false_eq_true, true_and]

end Seed

/-! ## What is gathered -/

/-- What a value gives of one kind, under the input that it is for. -/
def InputValue.gives? {α : Type} (root : Component) (pick : Contribution → Option α)
    (value : InputValue) : Option (String × α) :=
  ((value.contribution? root).bind pick).map (value.target, ·)

namespace Seed

/-- What values give of one kind, in order. -/
def given {α : Type} (root : Component) (pick : Contribution → Option α)
    (values : List InputValue) : List (String × α) :=
  values.filterMap (·.gives? root pick)

section Given

variable {α : Type} {root : Component} {pick : Contribution → Option α}
  {values : List InputValue} {value : InputValue} {name : String} {found : α}

theorem mem_given :
    (name, found) ∈ given root pick values ↔
      ∃ value ∈ values, value.target = name ∧
        (value.contribution? root).bind pick = some found := by
  rw [given, List.mem_filterMap]
  refine exists_congr fun value => and_congr_right fun _ => ?_
  rw [InputValue.gives?, Option.map_eq_some_iff]
  constructor
  · rintro ⟨found, hpicked, heq⟩
    obtain ⟨rfl, rfl⟩ := Prod.mk.inj heq
    exact ⟨rfl, hpicked⟩
  · rintro ⟨rfl, hpicked⟩
    exact ⟨found, hpicked, rfl⟩

/-- Where inputs are distinct, what is given for the input of a value is given by that value. -/
theorem mem_given_of_mem (hdistinct : (values.map (·.target)).Nodup) (hmem : value ∈ values) :
    (value.target, found) ∈ given root pick values ↔
      (value.contribution? root).bind pick = some found := by
  rw [mem_given]
  constructor
  · rintro ⟨other, hother, htarget, hpicked⟩
    rwa [← List.inj_on_of_nodup_map hdistinct hother hmem htarget]
  · exact fun hpicked => ⟨value, hmem, rfl, hpicked⟩

/-- What is given is given for inputs of the values, in their order. -/
theorem given_sublist (root : Component) (pick : Contribution → Option α)
    (values : List InputValue) :
    ((given root pick values).map Prod.fst).Sublist (values.map (·.target)) := by
  induction values with
  | nil => exact .slnil
  | cons value values ih =>
    rw [given, List.map_cons]
    cases hpicked : (value.contribution? root).bind pick with
    | none =>
      rw [List.filterMap_cons_none (by rw [InputValue.gives?, hpicked]; rfl)]
      exact ih.cons _
    | some found =>
      rw [List.filterMap_cons_some (by rw [InputValue.gives?, hpicked]; rfl)]
      exact ih.cons_cons _

theorem given_append_singleton :
    given root pick (values ++ [value]) =
      given root pick values ++ (value.gives? root pick).toList := by
  rw [given, List.filterMap_append, List.filterMap_cons]
  cases value.gives? root pick <;> rfl

end Given

/-! ### One more value -/

section Accept

variable {root : Component} {seed : Seed} {value : InputValue}

theorem arguments_accept :
    (seed.accept root value).arguments =
      ⟨seed.arguments.parameters ++ (value.gives? root Contribution.argument?).toList.map
        fun binding => .withValue binding.1 binding.2, seed.arguments.artifacts⟩ := by
  rw [accept, InputValue.gives?]
  cases value.contribution? root with
  | none => exact congrArg₂ Arguments.mk (List.append_nil _).symm rfl
  | some contribution =>
    cases contribution with
    | argument text => rfl
    | nothing | volume _ | secret _ =>
      exact congrArg₂ Arguments.mk (List.append_nil _).symm rfl

theorem volumes_accept :
    (seed.accept root value).scopes.volumes =
      seed.scopes.volumes.insertAll (value.gives? root Contribution.volumeName?).toList := by
  rw [accept, InputValue.gives?]
  cases value.contribution? root with
  | none => rfl
  | some contribution => cases contribution <;> rfl

theorem secrets_accept :
    (seed.accept root value).scopes.secrets =
      seed.scopes.secrets.insertAll (value.gives? root Contribution.secret?).toList := by
  rw [accept, InputValue.gives?]
  cases value.contribution? root with
  | none => rfl
  | some contribution => cases contribution <;> rfl

/-- A volume that is bound is declared under its name, and the others stay declared. -/
theorem mem_names_bindVolume {port name : String} {declared : Volume} :
    name ∈ (seed.bindVolume port declared).volumes.map (·.name) ↔
      name ∈ seed.volumes.map (·.name) ∨ name ∈ [declared.name] := by
  rw [bindVolume, List.mem_singleton]
  by_cases hthere : seed.volumes.any (·.name = declared.name) = true
  · obtain ⟨other, hother, hname⟩ := List.any_eq_true.1 hthere
    rw [if_pos hthere, iff_self_or]
    rintro rfl
    exact List.mem_map.2 ⟨other, hother, of_decide_eq_true hname⟩
  · rw [if_neg hthere, List.map_append, List.mem_append, List.map_singleton, List.mem_singleton]

theorem mem_names_accept {name : String} :
    name ∈ (seed.accept root value).volumes.map (·.name) ↔
      name ∈ seed.volumes.map (·.name) ∨
        name ∈ (value.gives? root Contribution.volumeName?).toList.map Prod.snd := by
  rw [accept, InputValue.gives?]
  cases value.contribution? root with
  | none => exact (or_iff_left List.not_mem_nil).symm
  | some contribution =>
    cases contribution with
    | volume declared => exact mem_names_bindVolume
    | nothing | argument _ | secret _ => exact (or_iff_left List.not_mem_nil).symm

end Accept

/-! ### All of them -/

/-- A seed consists of what the values give: of their arguments, of maps of their volumes and
secrets, and of one volume for each name that they use. -/
structure Gathers (root : Component) (values : List InputValue) (seed : Seed) : Prop where
  arguments : seed.arguments =
    ⟨(given root Contribution.argument? values).map fun binding =>
      .withValue binding.1 binding.2, []⟩
  volumes : seed.scopes.volumes = KeyMap.ofList (given root Contribution.volumeName? values)
  secrets : seed.scopes.secrets = KeyMap.ofList (given root Contribution.secret? values)
  declared : ∀ name, name ∈ seed.volumes.map (·.name) ↔
    name ∈ (given root Contribution.volumeName? values).map Prod.snd

theorem Gathers.accept {root : Component} {values : List InputValue} {seed : Seed}
    (h : seed.Gathers root values) (value : InputValue) :
    (seed.accept root value).Gathers root (values ++ [value]) := by
  constructor
  case arguments =>
    rw [arguments_accept, h.arguments, given_append_singleton, List.map_append]
  case volumes =>
    rw [volumes_accept, h.volumes, given_append_singleton, KeyMap.ofList_append]
  case secrets =>
    rw [secrets_accept, h.secrets, given_append_singleton, KeyMap.ofList_append]
  case declared =>
    intro name
    rw [mem_names_accept, h.declared, given_append_singleton, List.map_append, List.mem_append]

/-- What all values give makes up the seed. -/
theorem gathers_foldl (root : Component) (values : List InputValue) :
    (values.foldl (Seed.accept root) empty).Gathers root values := by
  induction values using List.reverseRecOn with
  | nil => exact ⟨rfl, rfl, rfl, fun _ => Iff.rfl⟩
  | append_singleton values value ih =>
    rw [List.foldl_append]
    exact ih.accept value

theorem gathers_of_ofValues {root : Component} {values : List InputValue} {seed : Seed}
    (h : ofValues root values = .ok seed) : seed.Gathers root values := by
  rw [← (ofValues_eq_ok.1 h).2.2]
  exact gathers_foldl root values

end Seed

end Pipeline
