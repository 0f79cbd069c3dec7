/-
Accepted values: what a job may give to its root, and what comes of it.

Values are looked at one after another, and three things are asked of each: that its
input is there, that no value before was for the same one, and that the payload fits the
type. So the values before matter only by the inputs that they are for
(`InputValue.Breaks`). Values are accepted exactly when none of them breaks a rule, and
otherwise the first that does is named (`Seed.ofValues_eq_error`).

Values that are accepted fill a seed, each of them the part that belongs to the type of
its input. The parts are read off the list without any regard to the order in which they
were filled (`Seed.holds_of_ofValues`); only the arguments of the workflow keep it.
-/
import Pipeline.Proofs.Contributions

set_option autoImplicit false

namespace Pipeline

open Manifest (Parameter SecretKey Volume)

/-! ## What is meant -/

namespace Payload

/-- The volume that a text denotes. -/
def volume? : Payload → Option Volume
  | .text value => (Json.parse? value).bind Volume.ofJson?
  | .list _ => none

/-- The key of a secret that a text denotes. -/
def secret? : Payload → Option SecretKey
  | .text value => (Json.parse? value).bind SecretKey.ofJson?
  | .list _ => none

/-- The value of an argument: a string as it is, and a list as its JSON text. -/
def argument : Payload → String
  | .text value => value
  | .list values => (Json.ofStrings values).text .compact

/-- What can be given to an input of a type. -/
inductive Fits : PortType → Payload → Prop where
  | string {value : String} : Fits .parameter (.text value)
  | listAsText {value : String} : Fits .parameterArray (.text value)
  | list {values : List String} : Fits .parameterArray (.list values)
  | artifact {payload : Payload} : Fits .artifact payload
  | volume {payload : Payload} {volume : Volume} (h : payload.volume? = some volume) :
      Fits .volume payload
  | secret {payload : Payload} {secret : SecretKey} (h : payload.secret? = some secret) :
      Fits .envSecret payload

/-- Why a payload does not fit, if it does not. -/
def misfit (type : PortType) : Payload → ValueFault
  | .text _ => .malformed
  | .list _ => .listForScalar type

end Payload

/-- The type of the input of the root that a value is for. -/
def InputValue.type? (root : Component) (value : InputValue) : Option PortType :=
  (root.input? value.target).map Port.type

/-- The value cannot be given after others, and why. -/
inductive InputValue.Breaks (root : Component) (before : List InputValue) (value : InputValue) :
    LoweringFault → Prop where
  | unknown (htype : value.type? root = none) :
      Breaks root before value (.unknownInput value.target)
  | twice {type : PortType} (htype : value.type? root = some type)
      (hbefore : value.target ∈ before.map (·.target)) :
      Breaks root before value (.invalidValue value.target .boundTwice)
  | misfit {type : PortType} (htype : value.type? root = some type)
      (hnew : value.target ∉ before.map (·.target)) (hmisfit : ¬ value.payload.Fits type) :
      Breaks root before value (.invalidValue value.target (value.payload.misfit type))

/-- The values are for distinct inputs that are there, and fit them. -/
structure Component.Accepts (root : Component) (values : List InputValue) : Prop where
  distinct : (values.map (·.target)).Nodup
  fits : ∀ value ∈ values, ∃ type, value.type? root = some type ∧ value.payload.Fits type

/-- What the values amount to: an argument for each that is for a string or a list, no artifacts, a
scope for secrets and one for volumes, and one volume for each name in the latter. -/
structure Seed.Holds (seed : Seed) (root : Component) (values : List InputValue) : Prop where
  parameters : seed.arguments.parameters =
    (values.filter fun value => (value.type? root).any PortType.isParameter).map fun value =>
      .withValue value.target value.payload.argument
  artifacts : seed.arguments.artifacts = []
  secrets : ∀ name secret, seed.scopes.secrets.get? name = some secret ↔
    ∃ value ∈ values, value.target = name ∧ value.type? root = some .envSecret ∧
      value.payload.secret? = some secret
  volumes : ∀ name volumeName, seed.scopes.volumes.get? name = some volumeName ↔
    ∃ value ∈ values, value.target = name ∧ value.type? root = some .volume ∧
      value.payload.volume?.map (·.name) = some volumeName
  distinct : (seed.volumes.map (·.name)).Nodup
  declared : ∀ volumeName, volumeName ∈ seed.volumes.map (·.name) ↔
    ∃ name, seed.scopes.volumes.get? name = some volumeName

/-! ## Payloads and contributions -/

namespace Payload

variable {type : PortType} {payload : Payload}

theorem contribution_volume (payload : Payload) :
    Contribution.ofPayload? .volume payload = payload.volume?.map .volume := by
  cases payload <;> rfl

theorem contribution_secret (payload : Payload) :
    Contribution.ofPayload? .envSecret payload = payload.secret?.map .secret := by
  cases payload <;> rfl

/-- What fits has a contribution, and nothing else has one. -/
theorem fits_iff : payload.Fits type ↔ (Contribution.ofPayload? type payload).isSome = true := by
  constructor
  · intro h
    cases h with
    | string | listAsText | list => rfl
    | artifact => cases payload <;> rfl
    | volume h =>
      rw [contribution_volume, h]
      rfl
    | secret h =>
      rw [contribution_secret, h]
      rfl
  · intro h
    cases type with
    | parameter =>
      cases payload with
      | text value => exact .string
      | list values => cases h
    | parameterArray =>
      cases payload with
      | text value => exact .listAsText
      | list values => exact .list
    | artifact => exact .artifact
    | volume =>
      rw [contribution_volume, Option.isSome_map] at h
      obtain ⟨volume, hvolume⟩ := Option.isSome_iff_exists.1 h
      exact .volume hvolume
    | envSecret =>
      rw [contribution_secret, Option.isSome_map] at h
      obtain ⟨secret, hsecret⟩ := Option.isSome_iff_exists.1 h
      exact .secret hsecret

/-- A payload that fits gives an argument when a string or a list is wanted. -/
theorem Fits.bind_argument? (h : payload.Fits type) :
    (Contribution.ofPayload? type payload).bind Contribution.argument? =
      if type.isParameter then some payload.argument else none := by
  cases h with
  | string | listAsText | list => rfl
  | artifact => cases payload <;> rfl
  | volume h =>
    rw [contribution_volume, h]
    rfl
  | secret h =>
    rw [contribution_secret, h]
    rfl

theorem bind_volumeName? {name : String} :
    (Contribution.ofPayload? type payload).bind Contribution.volumeName? = some name ↔
      type = .volume ∧ payload.volume?.map (·.name) = some name := by
  cases type with
  | volume =>
    rw [contribution_volume]
    cases payload.volume? <;> simp [Contribution.volumeName?]
  | envSecret =>
    rw [contribution_secret]
    cases payload.secret? <;> simp [Contribution.volumeName?]
  | parameter | parameterArray | artifact =>
    cases payload <;> simp [Contribution.ofPayload?, Contribution.volumeName?]

theorem bind_secret? {secret : SecretKey} :
    (Contribution.ofPayload? type payload).bind Contribution.secret? = some secret ↔
      type = .envSecret ∧ payload.secret? = some secret := by
  cases type with
  | volume =>
    rw [contribution_volume]
    cases payload.volume? <;> simp [Contribution.secret?]
  | envSecret =>
    rw [contribution_secret]
    cases payload.secret? <;> simp [Contribution.secret?]
  | parameter | parameterArray | artifact =>
    cases payload <;> simp [Contribution.ofPayload?, Contribution.secret?]

end Payload

namespace InputValue

variable {root : Component} {value : InputValue} {before : List InputValue}

theorem contribution?_eq (root : Component) (value : InputValue) :
    value.contribution? root =
      (value.type? root).bind fun type => Contribution.ofPayload? type value.payload := by
  rw [contribution?, type?, Option.bind_map]
  rfl

theorem isSome_contribution? :
    (value.contribution? root).isSome = true ↔
      ∃ type, value.type? root = some type ∧ value.payload.Fits type := by
  rw [contribution?_eq, Option.isSome_bind]
  cases value.type? root with
  | none => simp
  | some type => simp [Payload.fits_iff]

/-- A value that breaks no rule is for an input that is there and free, and fits it. -/
theorem not_breaks_iff :
    (∀ cause, ¬ value.Breaks root before cause) ↔
      value.target ∉ before.map (·.target) ∧
        ∃ type, value.type? root = some type ∧ value.payload.Fits type := by
  constructor
  · intro h
    cases htype : value.type? root with
    | none => exact absurd (.unknown htype) (h _)
    | some type =>
      have hnew : value.target ∉ before.map (·.target) := fun hbefore => h _ (.twice htype hbefore)
      exact ⟨hnew, type, rfl, by_contra fun hmisfit => h _ (.misfit htype hnew hmisfit)⟩
  · rintro ⟨hnew, type, htype, hfits⟩ cause hbreaks
    cases hbreaks with
    | unknown hnone => cases hnone.symm.trans htype
    | twice _ hbefore => exact hnew hbefore
    | misfit hother _ hmisfit =>
      obtain rfl := Option.some.inj (hother.symm.trans htype)
      exact hmisfit hfits

end InputValue

/-! ## The first value that breaks a rule -/

namespace Component

variable {root : Component} {before values : List InputValue} {value : InputValue}

/-- One more value is accepted after others unless it breaks a rule. -/
theorem accepts_append_singleton :
    root.Accepts (before ++ [value]) ↔
      root.Accepts before ∧ ∀ cause, ¬ value.Breaks root before cause := by
  have hdistinct : ((before ++ [value]).map (·.target)).Nodup ↔
      value.target ∉ before.map (·.target) ∧ (before.map (·.target)).Nodup := by
    rw [List.map_append, List.map_singleton, List.nodup_append_comm, List.singleton_append,
      List.nodup_cons]
  rw [InputValue.not_breaks_iff]
  constructor
  · rintro ⟨hnodup, hfits⟩
    obtain ⟨hnew, hnodup⟩ := hdistinct.1 hnodup
    obtain ⟨hfits, hfit⟩ := List.forall_mem_append.1 hfits
    exact ⟨⟨hnodup, hfits⟩, hnew, hfit value (List.mem_singleton_self value)⟩
  · rintro ⟨⟨hnodup, hfits⟩, hnew, hfit⟩
    refine ⟨hdistinct.2 ⟨hnew, hnodup⟩, List.forall_mem_append.2 ⟨hfits, fun other hother => ?_⟩⟩
    rwa [List.mem_singleton.1 hother]

/-- Values that are not accepted have a first one that breaks a rule. -/
theorem exists_first_breaks (h : ¬ root.Accepts values) :
    ∃ before value after cause, values = before ++ value :: after ∧ root.Accepts before ∧
      value.Breaks root before cause := by
  induction values using List.reverseRecOn with
  | nil => exact absurd ⟨List.nodup_nil, nofun⟩ h
  | append_singleton values value ih =>
    by_cases hvalues : root.Accepts values
    · have hbreaks : ∃ cause, value.Breaks root values cause := by
        by_contra hnone
        exact h (accepts_append_singleton.2 ⟨hvalues, not_exists.1 hnone⟩)
      obtain ⟨cause, hbreaks⟩ := hbreaks
      exact ⟨values, value, [], cause, rfl, hvalues, hbreaks⟩
    · obtain ⟨before, first, after, cause, rfl, hbefore, hbreaks⟩ := ih hvalues
      exact ⟨before, first, after ++ [value], cause, by simp, hbefore, hbreaks⟩

end Component

namespace Seed

variable {root : Component} {values before after : List InputValue} {value : InputValue}

/-- Values are accepted exactly when they break no rule. -/
theorem exists_ofValues_iff : (∃ seed, ofValues root values = .ok seed) ↔ root.Accepts values := by
  simp only [ofValues_eq_ok, InputValue.isSome_contribution?]
  constructor
  · rintro ⟨seed, hdistinct, hfits, -⟩
    exact ⟨hdistinct, hfits⟩
  · rintro ⟨hdistinct, hfits⟩
    exact ⟨_, hdistinct, hfits, rfl⟩

theorem denoted_of_ne_some {α : Type} {ofJson? : Json → Option α} {text : String}
    (h : ∀ result, (Json.parse? text).bind ofJson? ≠ some result) :
    denoted ofJson? text = .error .malformed := by
  rw [denoted, Option.eq_none_iff_forall_ne_some.2 h]

/-- A payload that does not fit is refused, and why depends on its form alone. -/
theorem give_of_misfit (seed : Seed) {port : Port} {payload : Payload}
    (h : ¬ payload.Fits port.type) :
    seed.give port payload = .error (payload.misfit port.type) := by
  obtain ⟨name, type⟩ := port
  cases type <;> cases payload
  case parameter.text => exact absurd .string h
  case parameterArray.text => exact absurd .listAsText h
  case parameterArray.list => exact absurd .list h
  case artifact.text | artifact.list => exact absurd .artifact h
  -- A text that denotes nothing of the kind.
  case volume.text text =>
    show (denoted Volume.ofJson? text).map (seed.bindVolume name) = _
    rw [denoted_of_ne_some fun volume hvolume => h (.volume hvolume)]
    rfl
  case envSecret.text text =>
    show (denoted SecretKey.ofJson? text).map (seed.bindSecret name) = _
    rw [denoted_of_ne_some fun secret hsecret => h (.secret hsecret)]
    rfl
  -- A list where none is wanted.
  case parameter.list | volume.list | envSecret.list => rfl

/-- A value for an input that is there is refused if the input is bound, and then by what it is. -/
theorem giveAll_cons {port : Port} (hport : root.input? value.target = some port) (seed : Seed)
    (bound : List String) (values : List InputValue) :
    seed.giveAll root bound (value :: values) =
      if port.name ∈ bound then fault (.invalidValue value.target .boundTwice)
      else
        match seed.give port value.payload with
        | .error reason => fault (.invalidValue value.target reason)
        | .ok next => next.giveAll root (port.name :: bound) values := by
  rw [giveAll, targetOf, hport]
  rfl

/-- A value that breaks a rule ends the work, whatever comes after it. -/
theorem giveAll_of_breaks {cause : LoweringFault} (h : value.Breaks root before cause)
    {bound : List String} (hbound : ∀ name, name ∈ bound ↔ name ∈ before.map (·.target))
    (seed : Seed) (after : List InputValue) :
    seed.giveAll root bound (value :: after) = fault cause := by
  cases h with
  | unknown htype =>
    rw [giveAll, targetOf, Option.map_eq_none_iff.1 htype]
    rfl
  | twice htype hbefore =>
    obtain ⟨port, hport, rfl⟩ := Option.map_eq_some_iff.1 htype
    have hname : port.name = value.target := key_of_find? hport
    rw [giveAll_cons hport, if_pos ((hbound _).2 (hname ▸ hbefore))]
  | misfit htype hnew hmisfit =>
    obtain ⟨port, hport, rfl⟩ := Option.map_eq_some_iff.1 htype
    have hname : port.name = value.target := key_of_find? hport
    have hfree : port.name ∉ bound := fun hmem => hnew (hname ▸ (hbound _).1 hmem)
    rw [giveAll_cons hport, if_neg hfree, give_of_misfit seed hmisfit]

/-- Values that are accepted are given before those after them. -/
theorem giveAll_append {seed between : Seed} {bound : List String}
    (h : seed.giveAll root bound before = .ok between) (after : List InputValue) :
    ∃ bound', (∀ name, name ∈ bound' ↔ name ∈ bound ∨ name ∈ before.map (·.target)) ∧
      seed.giveAll root bound (before ++ after) = between.giveAll root bound' after := by
  induction before generalizing seed bound with
  | nil =>
    obtain rfl := Except.ok.inj h
    exact ⟨bound, by simp, rfl⟩
  | cons value before ih =>
    obtain ⟨port, next, hport, hfree, hgives, hrest⟩ := giveAll_cons_eq_ok.1 h
    have hname : port.name = value.target := key_of_find? hport
    obtain ⟨bound', hbound', happend⟩ := ih hrest
    refine ⟨bound', fun name => ?_, ?_⟩
    · rw [hbound', List.mem_cons, List.map_cons, List.mem_cons, hname]
      tauto
    · rw [List.cons_append, giveAll_cons hport, if_neg hfree, give_eq_ok.2 hgives]
      exact happend

/-- After values that are accepted, one that breaks a rule decides on all of them. -/
theorem ofValues_of_breaks (hbefore : root.Accepts before) {cause : LoweringFault}
    (hbreaks : value.Breaks root before cause) (after : List InputValue) :
    ofValues root (before ++ value :: after) = fault cause := by
  obtain ⟨between, hbetween⟩ := exists_ofValues_iff.2 hbefore
  obtain ⟨bound, hbound, happend⟩ := giveAll_append hbetween (value :: after)
  rw [ofValues, happend]
  refine giveAll_of_breaks hbreaks (fun name => ?_) between after
  rw [hbound]
  exact or_iff_right List.not_mem_nil

/-- Values are refused in the name of the first one that breaks a rule. -/
theorem ofValues_eq_error {error : LoweringError} :
    ofValues root values = .error error ↔
      ∃ before value after cause, values = before ++ value :: after ∧ root.Accepts before ∧
        value.Breaks root before cause ∧ error = .here cause := by
  constructor
  · intro h
    have hrefused : ¬ root.Accepts values := by
      intro haccepts
      obtain ⟨seed, hseed⟩ := exists_ofValues_iff.2 haccepts
      cases h.symm.trans hseed
    obtain ⟨before, value, after, cause, rfl, hbefore, hbreaks⟩ :=
      Component.exists_first_breaks hrefused
    have herror := h.symm.trans (ofValues_of_breaks hbefore hbreaks after)
    exact ⟨before, value, after, cause, rfl, hbefore, hbreaks, Except.error.inj herror⟩
  · rintro ⟨before, value, after, cause, rfl, hbefore, hbreaks, rfl⟩
    exact ofValues_of_breaks hbefore hbreaks after

/-! ## What is held -/

/-- The scope that values give of one kind binds each input to what the value for it gives. -/
theorem get?_given {α : Type} {pick : Contribution → Option α} (haccepts : root.Accepts values)
    {name : String} {found : α} :
    (KeyMap.ofList (given root pick values)).get? name = some found ↔
      ∃ value ∈ values, value.target = name ∧ ∃ type, value.type? root = some type ∧
        (Contribution.ofPayload? type value.payload).bind pick = some found := by
  rw [KeyMap.get?_ofList_eq_some (haccepts.distinct.sublist (given_sublist root pick values)),
    mem_given]
  refine exists_congr fun value => and_congr_right fun _ => and_congr_right fun _ => ?_
  rw [InputValue.contribution?_eq, Option.bind_assoc, Option.bind_eq_some_iff]

theorem holds_of_ofValues {seed : Seed} (h : ofValues root values = .ok seed) :
    seed.Holds root values := by
  have haccepts : root.Accepts values := exists_ofValues_iff.1 ⟨seed, h⟩
  have hgathers := gathers_of_ofValues h
  have hdeclares := declaresVolumes_of_ofValues h
  constructor
  case parameters =>
    rw [hgathers.arguments, given, ← List.filterMap_eq_filter, List.map_filterMap,
      List.map_filterMap]
    refine List.filterMap_congr fun value hvalue => ?_
    obtain ⟨type, htype, hfits⟩ := haccepts.fits value hvalue
    rw [InputValue.gives?, InputValue.contribution?_eq, htype, Option.bind_some,
      hfits.bind_argument?, Option.guard, htype, Option.any_some]
    cases type.isParameter <;> rfl
  case artifacts => rw [hgathers.arguments]
  case secrets =>
    intro name secret
    rw [hgathers.secrets, get?_given haccepts]
    simp only [Payload.bind_secret?, and_left_comm, exists_eq_left]
  case volumes =>
    intro name volumeName
    rw [hgathers.volumes, get?_given haccepts]
    simp only [Payload.bind_volumeName?, and_left_comm, exists_eq_left]
  case distinct => exact hdeclares.distinct
  case declared =>
    intro volumeName
    constructor
    · intro hdeclared
      obtain ⟨⟨name, _⟩, hgiven, rfl⟩ := List.mem_map.1 ((hgathers.declared volumeName).1 hdeclared)
      have hdistinct := haccepts.distinct.sublist
        (given_sublist root Contribution.volumeName? values)
      refine ⟨name, ?_⟩
      rwa [hgathers.volumes, KeyMap.get?_ofList_eq_some hdistinct]
    · rintro ⟨name, hbound⟩
      exact hdeclares.declared name volumeName hbound

/-- **Seeding is exact.** The values of a job are accepted exactly when they are for distinct inputs
of the root that are there, each fitting its own. Otherwise the first that breaks a rule is named,
with the first rule that it breaks. What is accepted fills the seed, each value the part that
belongs to the type of its input. -/
theorem ofValues_exact (root : Component) (values : List InputValue) :
    ((∃ seed, ofValues root values = .ok seed) ↔ root.Accepts values) ∧
      (∀ error, ofValues root values = .error error ↔
        ∃ before value after cause, values = before ++ value :: after ∧ root.Accepts before ∧
          value.Breaks root before cause ∧ error = .here cause) ∧
      ∀ seed, ofValues root values = .ok seed → seed.Holds root values :=
  ⟨exists_ofValues_iff, fun _ => ofValues_eq_error, fun _ => holds_of_ofValues⟩

/-- A root with an input of every type, and a second one for a volume. -/
def intake : Component :=
  { Component.ofImplementation (.repeating 1) "root" .any with
    inputs := [⟨"seed", .parameter⟩, ⟨"items", .parameterArray⟩, ⟨"doc", .artifact⟩,
      ⟨"work", .volume⟩, ⟨"again", .volume⟩, ⟨"token", .envSecret⟩] }

/-- Values for all of its inputs but one. -/
def intakeValues : List InputValue :=
  [⟨"work", .text "\x7b\"name\":\"disk\"\x7d"⟩, ⟨"items", .list ["a", "b"]⟩, ⟨"doc", .list []⟩,
    ⟨"token", .text "\x7b\"name\":\"creds\",\"key\":\"token\"\x7d"⟩, ⟨"seed", .text "42"⟩]

/-- The values fill a seed, and a second one for the string is refused, whatever it is. -/
theorem intakeValues_seeded :
    (∃ seed, ofValues intake intakeValues = .ok seed ∧
      seed.arguments.parameters = [.withValue "items" "[\"a\",\"b\"]", .withValue "seed" "42"] ∧
      seed.scopes.secrets.get? "token" = some ⟨"creds", "token"⟩ ∧
      seed.scopes.volumes.get? "work" = some "disk" ∧
      "disk" ∈ seed.volumes.map (·.name)) ∧
    ∀ payload, ofValues intake (intakeValues ++ [⟨"seed", payload⟩]) =
      .error (.here (.invalidValue "seed" .boundTwice)) := by
  have hok : ∃ seed, ofValues intake intakeValues = .ok seed ∧ True := by
    rw [← exists_ok_iff]
    decide +kernel
  obtain ⟨seed, hok, -⟩ := hok
  have hholds := (ofValues_exact intake intakeValues).2.2 seed hok
  have hvolume : seed.scopes.volumes.get? "work" = some "disk" :=
    (hholds.volumes "work" "disk").2 ⟨_, .head _, rfl, by decide, by decide +kernel⟩
  refine ⟨⟨seed, hok, ?_, ?_, hvolume, (hholds.declared "disk").2 ⟨"work", hvolume⟩⟩,
    fun payload => ?_⟩
  · rw [hholds.parameters]
    decide +kernel
  · exact (hholds.secrets "token" _).2
      ⟨_, .tail _ (.tail _ (.tail _ (.head _))), rfl, by decide, by decide +kernel⟩
  · have haccepts := (ofValues_exact intake intakeValues).1.1 ⟨seed, hok⟩
    have htype : (intake.input? "seed").map Port.type = some .parameter := by decide
    have hbefore : "seed" ∈ intakeValues.map (·.target) := by decide
    have htwice : InputValue.Breaks intake intakeValues ⟨"seed", payload⟩
        (.invalidValue "seed" .boundTwice) := .twice htype hbefore
    exact ((ofValues_exact intake _).2.1 _).2
      ⟨intakeValues, _, [], _, rfl, haccepts, htwice, rfl⟩

end Seed

end Pipeline
