/-
Closed volumes: every volume that a container mounts is declared by the workflow.

Below the root, a component finds volumes at its volume inputs and nowhere else,
and each was found at some input one level further up (`Visit.Leads.bound_iff`,
`Visit.Leads.exists_volume`). So no volume is made up on the way down, whatever the
claims and bridges by which it came: all that are found anywhere occur in the scope
of the root (`Visit.Reaches.exists_volume`), and those are the ones that the values
of the job declared.

A mount may name an input of any type, since an argument can override how it is
rendered. That does no harm here: what it mounts is still found in the scope.
-/
import Pipeline.Proofs.ClaimMeaning
import Pipeline.Proofs.ContainerParts
import Pipeline.Proofs.Handover
import Pipeline.Proofs.Seeding

set_option autoImplicit false

namespace Pipeline

open Manifest (Workflow)

namespace Visit

variable {visit next inner : Visit} {port volume : String}

/-! ## One step down -/

/-- A child finds volumes at the volume inputs that it declares, and only there. -/
theorem Leads.bound_iff (h : visit.Leads next) :
    (next.scopes.volumes.get? port).isSome ↔ ⟨port, .volume⟩ ∈ next.component.inputs := by
  obtain ⟨claim, -, hnext⟩ := h
  rw [Option.isSome_iff_exists]
  constructor
  · rintro ⟨volume, hvolume⟩
    exact (hnext.exists_claim hvolume).1
  · intro hdeclared
    obtain ⟨_, volume, -, -, hvolume⟩ := hnext.exists_volume hdeclared
    exact ⟨volume, hvolume⟩

/-- What a child finds, the composite finds at one of its inputs. -/
theorem Leads.exists_volume (h : visit.Leads next)
    (hvolume : next.scopes.volumes.get? port = some volume) :
    ∃ outer, visit.scopes.volumes.get? outer = some volume := by
  obtain ⟨claim, -, hnext⟩ := h
  obtain ⟨-, outer, -, houter⟩ := hnext.exists_claim hvolume
  exact ⟨outer, houter⟩

/-! ## All the way down -/

/-- What is found anywhere below a visit is found at the visit. -/
theorem Reaches.exists_volume (h : visit.Reaches inner)
    (hvolume : inner.scopes.volumes.get? port = some volume) :
    ∃ outer, visit.scopes.volumes.get? outer = some volume := by
  induction h generalizing port with
  | refl => exact ⟨port, hvolume⟩
  | tail _ hleads ih =>
    obtain ⟨between, hbetween⟩ := hleads.exists_volume hvolume
    exact ih hbetween

end Visit

/-! ## Jobs -/

/-- **Volumes are closed.** The volumes of the manifest of a job have distinct names, every mount of
every container names one of them, and every component below the root is visited with volumes at its
volume inputs and nowhere else, all of which occur in the scope of the root. -/
theorem Job.volumes_closed {job : Job} {settings : Settings} {workflow : Workflow}
    (hok : job.lower settings = .ok workflow) :
    (workflow.spec.volumes.map (·.name)).Nodup ∧
      (∀ template ∈ workflow.spec.templates, ∀ container, template.container = some container →
        ∀ mount ∈ container.volumeMounts, mount.name ∈ workflow.spec.volumes.map (·.name)) ∧
      ∃ root seed, job.root = .ok root ∧ Seed.ofValues root job.inputs = .ok seed ∧
        ∀ visit, Relation.TransGen Visit.Leads ⟨root, seed.scopes⟩ visit →
          (∀ port, (visit.scopes.volumes.get? port).isSome ↔
            ⟨port, .volume⟩ ∈ visit.component.inputs) ∧
          ∀ port volume, visit.scopes.volumes.get? port = some volume →
            ∃ outer, seed.scopes.volumes.get? outer = some volume := by
  obtain ⟨root, seed, templates, hroot, hseed, htemplates, hvolumes, hkept⟩ := Job.exists_seed hok
  have hdeclares := Seed.declaresVolumes_of_ofValues hseed
  rw [hvolumes]
  refine ⟨hdeclares.distinct, ?_, root, seed, hroot, hseed, fun visit hbelow => ?_⟩
  · intro template hmem container hcontainer mount hmount
    -- The template is that of a visit, which found the volume, and so did the root.
    obtain ⟨visit, hreaches, htemplate⟩ := Component.exists_visit_of_mem htemplates (hkept _ hmem)
    obtain ⟨port, hport⟩ := Component.volume_of_mem_mounts htemplate hcontainer hmount
    obtain ⟨outer, houter⟩ := hreaches.exists_volume hport
    exact hdeclares.declared outer mount.name houter
  · obtain ⟨parent, hreaches, hleads⟩ := Relation.TransGen.tail'_iff.1 hbelow
    refine ⟨fun port => hleads.bound_iff, fun port volume hvolume => ?_⟩
    exact Visit.Reaches.exists_volume (hreaches.tail hleads) hvolume

/-- A job with a value for the one volume of the chain. -/
def chainJob : Job where
  workflow := ⟨.repeating 9, "job", "space", .inline .nestedChain⟩
  inputs := [⟨"shared", .text "\x7b\"name\":\"disk\"\x7d"⟩]

/-- The bricks of the chain mount the one volume that there is. -/
theorem chainJob_mounts :
    ∃ workflow, chainJob.lower .default = .ok workflow ∧
      workflow.spec.volumes.map (·.name) = ["disk"] ∧
      ∃ template ∈ workflow.spec.templates, template.name = (ComponentId.repeating 3).text ∧
        ∃ container, template.container = some container ∧ container.volumeMounts ≠ [] ∧
          ∀ mount ∈ container.volumeMounts, mount.name = "disk" := by
  have hlowered : ∃ workflow, chainJob.lower .default = .ok workflow ∧
      workflow.spec.volumes.map (·.name) = ["disk"] ∧
      ∃ template ∈ workflow.spec.templates, template.name = (ComponentId.repeating 3).text ∧
        template.container.map (fun container => container.volumeMounts.length) = some 1 := by
    rw [← exists_ok_iff]
    decide +kernel
  obtain ⟨workflow, hok, hvolumes, template, hmem, hname, hmounts⟩ := hlowered
  obtain ⟨container, hcontainer, hlength⟩ := Option.map_eq_some_iff.1 hmounts
  obtain ⟨-, hclosed, -⟩ := Job.volumes_closed hok
  refine ⟨workflow, hok, hvolumes, template, hmem, hname, container, hcontainer, ?_, ?_⟩
  · intro hempty
    rw [hempty] at hlength
    cases hlength
  · intro mount hmount
    have hdeclared := hclosed template hmem container hcontainer mount hmount
    rw [hvolumes] at hdeclared
    exact List.mem_singleton.1 hdeclared

end Pipeline
