/-
Rearrangement: the order of the values of a job does not matter, and neither do plain payloads.

Two jobs run the same component, and the values of the one are those of the other in
another order, where values for parameters, lists and artifacts may have other payloads
that fit as well. Then either job is lowered when the other one is, to the same templates.

What a value gives is a matter of that value alone, so that a seed that is gathered from
all of them can be compared kind by kind. Plain payloads give arguments and nothing else
(`PortType.TakesPlain`). Scopes are maps of what is given for distinct inputs, and are
equal; and the templates depend on the values through the scopes only. Which of two
volumes of one name is declared does depend on the order, but not that one is.
-/
import Mathlib.Data.List.Perm.Basic
import Pipeline.Proofs.Contributions
import Pipeline.Proofs.Interfaces

set_option autoImplicit false

namespace Pipeline

open Manifest (Arguments Parameter Workflow)

/-! ## Rearranged values -/

/-- The payloads that fit an input through which no resource of the workflow comes in. -/
inductive PortType.TakesPlain : PortType → Payload → Prop where
  | parameter (text : String) : TakesPlain .parameter (.text text)
  | parameterArray (payload : Payload) : TakesPlain .parameterArray payload
  | artifact (payload : Payload) : TakesPlain .artifact payload

namespace Submission

/-- The input of a name of the component that is run. -/
def input? (workflow : Submission) (name : String) : Option Port :=
  workflow.component.component?.bind (·.input? name)

/-- The values are equal, or are for one input that takes plain values, and fit it both. -/
inductive Alike (workflow : Submission) : InputValue → InputValue → Prop where
  | same (value : InputValue) : Alike workflow value value
  | plain {port : Port} {target : String} {before after : Payload}
      (hport : workflow.input? target = some port) (hbefore : port.type.TakesPlain before)
      (hafter : port.type.TakesPlain after) : Alike workflow ⟨target, before⟩ ⟨target, after⟩

/-- The values are the same in some order, up to the payloads of plain ones. -/
def Rearranges (workflow : Submission) (values others : List InputValue) : Prop :=
  ∃ order, values.Perm order ∧ List.Forall₂ workflow.Alike order others

end Submission

/-- A job for the same workflow, with the values rearranged. -/
structure Job.Rearranges (job other : Job) : Prop where
  workflow : other.workflow = job.workflow
  inputs : job.workflow.Rearranges job.inputs other.inputs

namespace Submission

variable {workflow : Submission} {value other : InputValue} {values others : List InputValue}

theorem Alike.symm (h : workflow.Alike value other) : workflow.Alike other value := by
  cases h with
  | same => exact .same _
  | plain hport hbefore hafter => exact .plain hport hafter hbefore

theorem Alike.target_eq (h : workflow.Alike value other) : value.target = other.target := by
  cases h with
  | same => rfl
  | plain => rfl

/-- It is the same to change payloads first and to reorder then. -/
theorem Rearranges.symm (h : workflow.Rearranges values others) :
    workflow.Rearranges others values := by
  obtain ⟨order, hperm, halike⟩ := h
  have hcomp : Relation.Comp (List.Forall₂ workflow.Alike) List.Perm others values :=
    ⟨order, halike.flip.imp fun _ _ => Alike.symm, hperm.symm⟩
  rwa [List.forall₂_comp_perm_eq_perm_comp_forall₂] at hcomp

/-- Whatever is said of alike values in common is said of rearranged ones, in some order. -/
theorem Rearranges.map_perm {β : Type} {f : InputValue → β}
    (hf : ∀ value other, workflow.Alike value other → f value = f other)
    (h : workflow.Rearranges values others) : (values.map f).Perm (others.map f) := by
  obtain ⟨order, hperm, halike⟩ := h
  rw [← map_eq_of_related halike hf]
  exact hperm.map f

theorem Rearranges.targets_perm (h : workflow.Rearranges values others) :
    (values.map (·.target)).Perm (others.map (·.target)) :=
  h.map_perm fun _ _ => Alike.target_eq

/-! ## What rearranged values give -/

section Root

variable {root : Component} (hroot : workflow.component.component? = some root)
include hroot

/-- Alike values give the same, unless both give an argument. -/
theorem Alike.contribution? (h : workflow.Alike value other) :
    value.contribution? root = other.contribution? root ∨
      ∃ text text', value.contribution? root = some (.argument text) ∧
        other.contribution? root = some (.argument text') := by
  cases h with
  | same => exact .inl rfl
  | @plain port target before after hport hbefore hafter =>
    have hinput : root.input? target = some port := by
      rwa [input?, hroot, Option.bind_some] at hport
    rw [InputValue.contribution?, InputValue.contribution?, hinput, Option.bind_some,
      Option.bind_some]
    obtain ⟨name, type⟩ := port
    cases hbefore with
    | artifact => exact .inl rfl
    | parameter text =>
      cases hafter with
      | parameter text' => exact .inr ⟨text, text', rfl, rfl⟩
    -- A list is an argument like any other, by its text.
    | parameterArray payload =>
      cases before <;> cases after <;> exact .inr ⟨_, _, rfl, rfl⟩

theorem Alike.isSome_eq (h : workflow.Alike value other) :
    (value.contribution? root).isSome = (other.contribution? root).isSome := by
  rcases h.contribution? hroot with hsame | ⟨text, text', hvalue, hother⟩
  · rw [hsame]
  · rw [hvalue, hother]
    rfl

/-- Alike values give the same of every kind but arguments. -/
theorem Alike.gives?_eq {α : Type} {pick : Contribution → Option α}
    (hpick : ∀ text, pick (.argument text) = none) (h : workflow.Alike value other) :
    value.gives? root pick = other.gives? root pick := by
  rw [InputValue.gives?, InputValue.gives?, h.target_eq]
  rcases h.contribution? hroot with hsame | ⟨text, text', hvalue, hother⟩
  · rw [hsame]
  · rw [hvalue, hother, Option.bind_some, Option.bind_some, hpick, hpick]

/-- And they give arguments of one name. -/
theorem Alike.argumentName_eq (h : workflow.Alike value other) :
    (value.gives? root Contribution.argument?).map Prod.fst =
      (other.gives? root Contribution.argument?).map Prod.fst := by
  rw [InputValue.gives?, InputValue.gives?, h.target_eq]
  rcases h.contribution? hroot with hsame | ⟨text, text', hvalue, hother⟩
  · rw [hsame]
  · rw [hvalue, hother]
    rfl

theorem Rearranges.isSome (h : workflow.Rearranges values others)
    (hvalues : ∀ value ∈ values, (value.contribution? root).isSome) :
    ∀ other ∈ others, (other.contribution? root).isSome := by
  intro other hother
  have hperm := h.map_perm fun _ _ => Alike.isSome_eq hroot
  obtain ⟨value, hvalue, hsame⟩ :=
    List.mem_map.1 (hperm.symm.subset (List.mem_map_of_mem hother))
  rw [← hsame]
  exact hvalues value hvalue

/-- Rearranged values give the same of every kind but arguments, in some order. -/
theorem Rearranges.given_perm {α : Type} {pick : Contribution → Option α}
    (hpick : ∀ text, pick (.argument text) = none) (h : workflow.Rearranges values others) :
    (Seed.given root pick values).Perm (Seed.given root pick others) := by
  have hperm := h.map_perm fun _ _ => Alike.gives?_eq hroot hpick
  have hfound := hperm.filterMap fun found => found
  rwa [List.filterMap_map, List.filterMap_map] at hfound

/-- And they give arguments of the same names. -/
theorem Rearranges.argumentNames_perm (h : workflow.Rearranges values others) :
    ((Seed.given root Contribution.argument? values).map Prod.fst).Perm
      ((Seed.given root Contribution.argument? others).map Prod.fst) := by
  have hperm := h.map_perm fun _ _ => Alike.argumentName_eq hroot
  have hnames := hperm.filterMap fun name => name
  rw [List.filterMap_map, List.filterMap_map] at hnames
  rw [Seed.given, Seed.given, List.map_filterMap, List.map_filterMap]
  exact hnames

end Root

end Submission

/-! ## What they seed -/

/-- Arguments are named by the inputs for which one is given. -/
theorem Seed.Gathers.mem_names {root : Component} {values : List InputValue} {seed : Seed}
    (h : seed.Gathers root values) {channel : Channel} {name : String} :
    name ∈ seed.arguments.names channel ↔
      channel = .parameter ∧ name ∈ (given root Contribution.argument? values).map Prod.fst := by
  rw [h.arguments]
  cases channel with
  | parameter =>
    rw [Arguments.names, List.map_map]
    exact (and_iff_right rfl).symm
  | artifact => simp [Arguments.names]

/-- Where inputs are distinct, the argument for the input of a value has what that value gives. -/
theorem Seed.Gathers.mem_parameters {root : Component} {values : List InputValue} {seed : Seed}
    (h : seed.Gathers root values) (hdistinct : (values.map (·.target)).Nodup)
    {value : InputValue} (hmem : value ∈ values) {parameter : Parameter}
    (hname : parameter.name = value.target) :
    parameter ∈ seed.arguments.parameters ↔
      ∃ text, (value.contribution? root).bind Contribution.argument? = some text ∧
        .withValue value.target text = parameter := by
  rw [h.arguments, List.mem_map]
  constructor
  · rintro ⟨⟨name, text⟩, hgiven, rfl⟩
    obtain rfl : name = value.target := hname
    exact ⟨text, (mem_given_of_mem hdistinct hmem).1 hgiven, rfl⟩
  · rintro ⟨text, hgiven, hparameter⟩
    exact ⟨(value.target, text), (mem_given_of_mem hdistinct hmem).2 hgiven, hparameter⟩

namespace Submission.Rearranges

variable {workflow : Submission} {root : Component} {values others : List InputValue}
  {seed seed' : Seed}

/-- What is bound by the rearranged values is what was bound before. -/
theorem scopes_eq (hroot : workflow.component.component? = some root)
    (h : workflow.Rearranges values others) (hdistinct : (values.map (·.target)).Nodup)
    (hseed : seed.Gathers root values) (hseed' : seed'.Gathers root others) :
    seed.scopes = seed'.scopes := by
  have hkeys {α : Type} (pick : Contribution → Option α) :
      ((Seed.given root pick values).map Prod.fst).Nodup :=
    (Seed.given_sublist root pick values).nodup hdistinct
  have hsecrets : seed.scopes.secrets = seed'.scopes.secrets := by
    rw [hseed.secrets, hseed'.secrets]
    exact KeyMap.ofList_perm (h.given_perm hroot fun _ => rfl) (hkeys _)
  have hvolumes : seed.scopes.volumes = seed'.scopes.volumes := by
    rw [hseed.volumes, hseed'.volumes]
    exact KeyMap.ofList_perm (h.given_perm hroot fun _ => rfl) (hkeys _)
  exact congrArg₂ Scopes.mk hsecrets hvolumes

/-- The volumes that are declared have the same names. -/
theorem mem_volumes_iff (hroot : workflow.component.component? = some root)
    (h : workflow.Rearranges values others) (hseed : seed.Gathers root values)
    (hseed' : seed'.Gathers root others) (name : String) :
    name ∈ seed.volumes.map (·.name) ↔ name ∈ seed'.volumes.map (·.name) := by
  have hgiven : (Seed.given root Contribution.volumeName? values).Perm
      (Seed.given root Contribution.volumeName? others) := h.given_perm hroot fun _ => rfl
  rw [hseed.declared, hseed'.declared]
  exact (hgiven.map _).mem_iff

/-- And so have the arguments. -/
theorem mem_names_iff (hroot : workflow.component.component? = some root)
    (h : workflow.Rearranges values others) (hseed : seed.Gathers root values)
    (hseed' : seed'.Gathers root others) (channel : Channel) (name : String) :
    name ∈ seed.arguments.names channel ↔ name ∈ seed'.arguments.names channel := by
  rw [hseed.mem_names, hseed'.mem_names]
  exact and_congr_right fun _ => (h.argumentNames_perm hroot).mem_iff

end Submission.Rearranges

/-! ## Rearranged jobs -/

/-- The manifests of two jobs agree in their templates, in the entrypoint and in the names of
volumes and arguments, and an argument for which both jobs have the same value is the same. -/
structure Job.LowersAlike (job other : Job) (workflow workflow' : Workflow) : Prop where
  templates : workflow.spec.templates = workflow'.spec.templates
  entrypoint : workflow.spec.entrypoint = workflow'.spec.entrypoint
  volumes : ∀ name, name ∈ workflow.spec.volumes.map (·.name) ↔
    name ∈ workflow'.spec.volumes.map (·.name)
  arguments : ∀ channel name, name ∈ workflow.spec.arguments.names channel ↔
    name ∈ workflow'.spec.arguments.names channel
  values : ∀ value ∈ job.inputs, value ∈ other.inputs → ∀ parameter : Parameter,
    parameter.name = value.target → (parameter ∈ workflow.spec.arguments.parameters ↔
      parameter ∈ workflow'.spec.arguments.parameters)

namespace Job.Rearranges

variable {job other : Job} {settings : Settings} {workflow : Workflow}

theorem symm (h : job.Rearranges other) : other.Rearranges job := by
  refine ⟨h.workflow.symm, ?_⟩
  rw [h.workflow]
  exact h.inputs.symm

/-- With its values rearranged, a job that is lowered still is, and alike. -/
theorem exists_lowersAlike (h : job.Rearranges other) (hok : job.lower settings = .ok workflow) :
    ∃ workflow', other.lower settings = .ok workflow' ∧
      job.LowersAlike other workflow workflow' := by
  obtain ⟨root, seed, templates, hjob, hseed, htemplates, rfl⟩ := Job.lower_eq_ok.1 hok
  have hroot : job.workflow.component.component? = some root := Node.component_eq_ok.1 hjob
  obtain ⟨hdistinct, hfit, -⟩ := Seed.ofValues_eq_ok.1 hseed
  have hdistinct' := h.inputs.targets_perm.nodup hdistinct
  -- The rearranged values are accepted, and what they give is what was given before.
  obtain ⟨seed', hseed'⟩ : ∃ seed', Seed.ofValues root other.inputs = .ok seed' :=
    ⟨_, Seed.ofValues_eq_ok.2 ⟨hdistinct', h.inputs.isSome hroot hfit, rfl⟩⟩
  have hgathers := Seed.gathers_of_ofValues hseed
  have hgathers' := Seed.gathers_of_ofValues hseed'
  have hscopes := h.inputs.scopes_eq hroot hdistinct hgathers hgathers'
  refine ⟨_, Job.lower_eq_ok.2 ⟨root, seed', templates, ?_, hseed', ?_, rfl⟩, ?_⟩
  · rw [Job.root, h.workflow]
    exact hjob
  · rw [← hscopes, htemplates]
  · constructor <;> rw [Job.spec_draft, Job.spec_draft]
    case volumes => exact h.inputs.mem_volumes_iff hroot hgathers hgathers'
    case arguments => exact h.inputs.mem_names_iff hroot hgathers hgathers'
    case values =>
      intro value hmem hmem' parameter hname
      rw [hgathers.mem_parameters hdistinct hmem hname,
        hgathers'.mem_parameters hdistinct' hmem' hname]

end Job.Rearranges

/-- **Order and plain payloads do not matter.** When the values of a job are given in another
order, and those for parameters, lists and artifacts with other payloads that fit, then the job is
lowered exactly when it was before. Its manifest then has the same templates, the same entrypoint,
volumes of the same names and arguments of the same names, where an argument changes only with the
payload of its value. -/
theorem Job.lowers_alike {job other : Job} (h : job.Rearranges other) (settings : Settings) :
    ((∃ workflow, job.lower settings = .ok workflow) ↔
      ∃ workflow', other.lower settings = .ok workflow') ∧
    ∀ workflow workflow', job.lower settings = .ok workflow →
      other.lower settings = .ok workflow' → job.LowersAlike other workflow workflow' := by
  refine ⟨⟨?_, ?_⟩, fun workflow workflow' hok hok' => ?_⟩
  · rintro ⟨workflow, hok⟩
    obtain ⟨workflow', hok', -⟩ := h.exists_lowersAlike hok
    exact ⟨workflow', hok'⟩
  · rintro ⟨workflow', hok'⟩
    obtain ⟨workflow, hok, -⟩ := h.symm.exists_lowersAlike hok'
    exact ⟨workflow, hok⟩
  · obtain ⟨found, hfound, halike⟩ := h.exists_lowersAlike hok
    obtain rfl := Except.ok.inj (hfound.symm.trans hok')
    exact halike

/-! ## Two volumes of one name -/

/-- A brick with a list and two volumes. -/
def Component.shelf : Component :=
  let brick : Brick := ⟨.ofImage "alpine", [.port "words", .port "left", .port "right"], []⟩
  { ofImplementation (.repeating 1) "shelf" (.brick brick) with
    inputs := [⟨"words", .parameterArray⟩, ⟨"left", .volume⟩, ⟨"right", .volume⟩] }

/-- A job with a list for the brick, and with two volumes of one name, which differ. -/
def shelfJob : Job where
  workflow := ⟨.repeating 9, "job", "space", .inline .shelf⟩
  inputs :=
    [⟨"left", .text "\x7b\"name\":\"disk\",\"medium\":\"Memory\"\x7d"⟩,
      ⟨"right", .text "\x7b\"name\":\"disk\"\x7d"⟩, ⟨"words", .list ["a", "b"]⟩]

/-- The job with its values in reverse order, and with a text for the list. -/
def turnedShelfJob : Job where
  workflow := shelfJob.workflow
  inputs :=
    [⟨"words", .text "c"⟩, ⟨"right", .text "\x7b\"name\":\"disk\"\x7d"⟩,
      ⟨"left", .text "\x7b\"name\":\"disk\",\"medium\":\"Memory\"\x7d"⟩]

theorem shelfJob_rearranges : shelfJob.Rearranges turnedShelfJob := by
  refine ⟨rfl, shelfJob.inputs.reverse, (List.reverse_perm _).symm, ?_⟩
  exact .cons (.plain rfl (.parameterArray _) (.parameterArray _))
    (.cons (.same _) (.cons (.same _) .nil))

/-- Both jobs are lowered, and alike. The one volume that is declared is the first in each of them,
and not the same one. -/
theorem shelfJob_lowers_turned :
    ∃ workflow workflow', shelfJob.lower .default = .ok workflow ∧
      turnedShelfJob.lower .default = .ok workflow' ∧
      shelfJob.LowersAlike turnedShelfJob workflow workflow' ∧
      workflow.spec.volumes.map (fun volume => (volume.name, volume.source.size)) = [("disk", 1)] ∧
      workflow'.spec.volumes.map (fun volume => (volume.name, volume.source.size)) =
        [("disk", 0)] := by
  have hlowered : ∃ workflow, shelfJob.lower .default = .ok workflow ∧
      workflow.spec.volumes.map (fun volume => (volume.name, volume.source.size)) =
        [("disk", 1)] := by
    rw [← exists_ok_iff]
    decide +kernel
  have hturned : ∃ workflow', turnedShelfJob.lower .default = .ok workflow' ∧
      workflow'.spec.volumes.map (fun volume => (volume.name, volume.source.size)) =
        [("disk", 0)] := by
    rw [← exists_ok_iff]
    decide +kernel
  obtain ⟨workflow, hok, hvolumes⟩ := hlowered
  obtain ⟨workflow', hok', hvolumes'⟩ := hturned
  obtain ⟨-, halike⟩ := Job.lowers_alike shelfJob_rearranges .default
  exact ⟨workflow, workflow', hok, hok', halike workflow workflow' hok hok', hvolumes, hvolumes'⟩

end Pipeline
