/-
Provenance of secrets: what a container finds in its environment came all the way
from a value of the job.

A composite hands a secret down by a mapping, and by nothing else, so the mappings
on the way to a visit form a path from an input of the root to the input at which
the secret is found (`Component.MapsTo`). That is an invariant of visits: a step
from a visit to the next makes the path one mapping longer
(`Visit.Reaches.exists_mapsTo`). At its one end a brick reads its secret inputs,
each of them once and nothing else; at its other end the values of the job bound
the secret inputs of the root.

The second branch of a conditional is handed what is mapped to the first one, so
its part of a path is a mapping into that one.
-/
import Pipeline.Proofs.ContainerParts
import Pipeline.Proofs.Handover
import Pipeline.Proofs.Seeding
import Pipeline.Proofs.WellWired

set_option autoImplicit false

namespace Pipeline

open Manifest (Container SecretKey Workflow)

/-! ## Paths of mappings -/

/-- Mappings lead from an input of the root to an input of a component below it, through every
component on the way. -/
inductive Component.MapsTo (root : Component) (outer : String) : Component → String → Prop where
  | root : MapsTo root outer root outer
  /-- One more mapping, into the node whose bindings the child is handed. -/
  | child {component child : Component} {claimant name inner : String} {node : Node}
      (hpath : MapsTo root outer component name)
      (hclaim : (claimant, node) ∈ component.claimants) (hchild : node.component? = some child)
      (hmapping : ⟨name, ⟨claimant, inner⟩⟩ ∈ component.wiring.inputMappings) :
      MapsTo root outer child inner

/-- A secret that is found at a visit was found at an input of the root, from which mappings lead to
where it is found. -/
theorem Visit.Reaches.exists_mapsTo {visit inner : Visit} (h : visit.Reaches inner) {name : String}
    {secret : SecretKey} (hsecret : inner.scopes.secrets.get? name = some secret) :
    ∃ outer, visit.scopes.secrets.get? outer = some secret ∧
      visit.component.MapsTo outer inner.component name := by
  induction h generalizing name with
  | refl => exact ⟨name, hsecret, .root⟩
  | tail _ hleads ih =>
    obtain ⟨claim, hclaim, hnext⟩ := hleads
    obtain ⟨between, hmapping, hbetween⟩ := hnext.exists_mapping hsecret
    obtain ⟨outer, houter, hpath⟩ := ih hbetween
    exact ⟨outer, houter, .child hpath hclaim hnext.1 hmapping⟩

/-! ## Containers -/

/-- The container reads the secret inputs of its component and nothing else, and what it reads came
from a value of the job. -/
structure Component.SecretsTraced (root : Component) (values : List InputValue)
    (component : Component) (container : Container) : Prop where
  /-- The variables that are read from secrets are named as the secret inputs. -/
  names : container.secretNames = component.secretInputs
  /-- Each secret input gives one variable. -/
  once : ∀ name, ⟨name, .envSecret⟩ ∈ component.inputs → container.secretNames.count name = 1
  /-- Each secret was supplied to an input of the root, from which mappings lead to the variable. -/
  traced : ∀ var ∈ container.env, ∀ secret, var.secret = some secret →
    ⟨var.name, .envSecret⟩ ∈ component.inputs ∧
      ∃ outer, Seed.Supplies root values outer secret ∧ root.MapsTo outer component var.name

theorem Component.nodup_secretInputs {component : Component} (h : component.validate = .ok ()) :
    component.secretInputs.Nodup :=
  (nodup_inputs h).sublist (List.Sublist.map Port.name List.filter_sublist)

/-- The container of any visit below the seeded root is traced. -/
theorem Visit.Reaches.secretsTraced {root : Component} {values : List InputValue} {seed : Seed}
    (hseed : Seed.ofValues root values = .ok seed) (hvalid : root.validate = .ok ()) {visit : Visit}
    (hreaches : Visit.Reaches ⟨root, seed.scopes⟩ visit) {settings : Settings}
    {template : Manifest.Template} (htemplate : visit.template settings = .ok template)
    {container : Container} (hcontainer : template.container = some container) :
    root.SecretsTraced values visit.component container := by
  have hnames := Component.secretNames_of_template htemplate hcontainer
  refine ⟨hnames, fun name hname => ?_, fun var hvar secret hsecret => ?_⟩
  · have hdistinct := Component.nodup_secretInputs (Component.Within.valid hreaches.within hvalid)
    rw [hnames]
    refine List.count_eq_one_of_mem hdistinct ?_
    exact List.mem_map.2 ⟨_, List.mem_filter.2 ⟨hname, decide_eq_true rfl⟩, rfl⟩
  · obtain ⟨hdeclared, hbound⟩ := Component.secret_of_mem_env htemplate hcontainer hvar hsecret
    obtain ⟨outer, houter, hpath⟩ := hreaches.exists_mapsTo hbound
    exact ⟨hdeclared, outer, Seed.supplies_of_ofValues hseed houter, hpath⟩

/-- **Secrets come from the job.** Every template with a container in the manifest of a job is that
of a brick in the tree: its variables that are read from secrets are one for each secret input of the
brick, and each shows a secret that a value of the job denotes for a secret input of the root, from
which mappings lead to that input of the brick. The same holds of the template of a brick at every
place in the tree, be it kept in the manifest or not. -/
theorem Job.secrets_from_values {job : Job} {settings : Settings} {workflow : Workflow}
    (hok : job.lower settings = .ok workflow) :
    ∃ root seed, job.root = .ok root ∧ Seed.ofValues root job.inputs = .ok seed ∧
      (∀ template ∈ workflow.spec.templates, ∀ container, template.container = some container →
        ∃ component brick, root.Within component ∧ component.implementation = .brick brick ∧
          template.name = component.id.text ∧
          root.SecretsTraced job.inputs component container) ∧
      ∀ visit brick, Visit.Reaches ⟨root, seed.scopes⟩ visit →
        visit.component.implementation = .brick brick →
        ∃ template container, visit.template settings = .ok template ∧
          template.container = some container ∧
          root.SecretsTraced job.inputs visit.component container := by
  obtain ⟨root, seed, templates, hroot, hseed, htemplates, -, hkept⟩ := Job.exists_seed hok
  have hvalid := Component.valid_of_templates htemplates
  refine ⟨root, seed, hroot, hseed, fun template hmem container hcontainer => ?_,
    fun visit brick hreaches hbrick => ?_⟩
  · obtain ⟨visit, hreaches, htemplate⟩ := Component.exists_visit_of_mem htemplates (hkept _ hmem)
    obtain ⟨brick, hbrick, -⟩ := Component.exists_brick htemplate hcontainer
    exact ⟨visit.component, brick, hreaches.within, hbrick, Component.template_name htemplate,
      hreaches.secretsTraced hseed hvalid htemplate hcontainer⟩
  · obtain ⟨repeats, hrepeats, -⟩ := Component.templates_eq_ok htemplates
    obtain ⟨template, htemplate⟩ := hreaches.exists_template hrepeats
    have hcontainer : ∃ container, template.container = some container := by
      have h := htemplate
      rw [Visit.template, Component.template, hbrick] at h
      obtain ⟨rendered, vars, outputs, -, -, -, rfl⟩ := Brick.template_eq_ok.1 h
      exact ⟨_, rfl⟩
    obtain ⟨container, hcontainer⟩ := hcontainer
    exact ⟨template, container, htemplate, hcontainer,
      hreaches.secretsTraced hseed hvalid htemplate hcontainer⟩

/-! ## A secret behind a guard -/

namespace Component

/-- A brick that reads one secret. -/
def secretBrick (number : Nat) : Component :=
  let brick : Brick := ⟨.ofImage "alpine", [], []⟩
  { Component.ofImplementation (.repeating number) "brick" (.brick brick) with
    inputs := [⟨"key", .envSecret⟩] }

/-- A conditional whose second branch has no mapping of its own. -/
def guardedSecret : Component :=
  let branches : Conditional :=
    { nodeTrue := ⟨"yes", .inline (secretBrick 1)⟩
      nodeFalse := some ⟨"no", .inline (secretBrick 2)⟩
      condition := ⟨.literal "1", .eq, .literal "1"⟩
      inputMappings := [⟨"secret", ⟨"yes", "key"⟩⟩]
      outputMappings := [] }
  { Component.ofImplementation (.repeating 3) "guard" (.conditional branches) with
    inputs := [⟨"secret", .envSecret⟩] }

/-- The conditional inside a graph, which calls the secret by another name. -/
def vault : Component :=
  let graph : Graph :=
    ⟨[⟨"guard", .inline guardedSecret⟩], [], [⟨"token", ⟨"guard", "secret"⟩⟩], []⟩
  { Component.ofImplementation (.repeating 4) "vault" (.graph graph) with
    inputs := [⟨"token", .envSecret⟩] }

end Component

/-- A job with a value for the one secret. -/
def vaultJob : Job where
  workflow := ⟨.repeating 9, "job", "space", .inline .vault⟩
  inputs := [⟨"token", .text "\x7b\"name\":\"store\",\"key\":\"token\"\x7d"⟩]

/-- The second branch reads the secret that is mapped to the first one. -/
theorem vaultJob_secret :
    ∃ workflow, vaultJob.lower .default = .ok workflow ∧
      ∃ template ∈ workflow.spec.templates, template.name = (ComponentId.repeating 2).text ∧
        ∃ container, template.container = some container ∧ container.secretNames = ["key"] ∧
          ∃ component outer, component.id.text = (ComponentId.repeating 2).text ∧
            Seed.Supplies .vault vaultJob.inputs outer ⟨"store", "token"⟩ ∧
            Component.vault.MapsTo outer component "key" := by
  have hlowered : ∃ workflow, vaultJob.lower .default = .ok workflow ∧
      ∃ template ∈ workflow.spec.templates, template.name = (ComponentId.repeating 2).text ∧
        template.container.map Container.env = some [.ofSecret "key" ⟨"store", "token"⟩] := by
    rw [← exists_ok_iff]
    decide +kernel
  obtain ⟨workflow, hok, template, hmem, hname, henv⟩ := hlowered
  obtain ⟨container, hcontainer, henv⟩ := Option.map_eq_some_iff.1 henv
  obtain ⟨root, seed, hroot, -, hkept, -⟩ := Job.secrets_from_values hok
  obtain rfl : Component.vault = root := Except.ok.inj hroot
  obtain ⟨component, brick, -, -, hid, htraced⟩ := hkept template hmem container hcontainer
  have hvar : Manifest.EnvVar.ofSecret "key" ⟨"store", "token"⟩ ∈ container.env := by
    rw [henv]
    exact List.mem_singleton.2 rfl
  obtain ⟨-, outer, hsupplies, hpath⟩ := htraced.traced _ hvar _ rfl
  refine ⟨workflow, hok, template, hmem, hname, container, hcontainer, ?_, component, outer, ?_,
    hsupplies, hpath⟩
  · rw [Manifest.Container.secretNames, henv]
    rfl
  · rw [← hid, hname]

end Pipeline
