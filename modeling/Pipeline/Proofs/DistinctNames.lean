/-
Distinct names: when nothing is named twice in what is emitted.

A list of names is put together by several hands, and none of them looks at what is
there already. The arguments of a task are named by the mappings into its node and then
by the edges. They are named apart when no two of these deliver to one input on one
channel, which is not a thing that is checked: an input of a task may be given two
values, where an input of the root may not. The variables of a container are the literal
ones of the brick, and then one for each secret input. Either kind is named apart by
itself, and all of them are when the two kinds have no name in common
(`Job.names_distinct_iff`).
-/
import Pipeline.Proofs.Deliveries
import Pipeline.Proofs.SecretProvenance

set_option autoImplicit false

namespace Pipeline

open Manifest (Container EnvVar Task)

/-! ## What is meant -/

namespace Component

/-- No two of the values that are delivered to the node on one channel are for the same input. -/
def DeliversApart (composite : Component) (id : String) : Prop :=
  (composite.deliveries id).Pairwise fun first second =>
    first.passing.channel = second.passing.channel → first.target ≠ second.target

instance (composite : Component) (id : String) : Decidable (composite.DeliversApart id) :=
  inferInstanceAs (Decidable (List.Pairwise _ _))

/-- The arguments of the task are named by what is delivered to the node, and named apart exactly when
that is delivered apart. -/
structure NamesArguments (composite : Component) (claim : String × Node) (task : Task) : Prop where
  names : ∀ channel, task.arguments.names channel =
    (composite.deliveries claim.1).filterMap (Delivery.nameOn? channel)
  distinct_iff : (∀ channel, (task.arguments.names channel).Nodup) ↔ composite.DeliversApart claim.1

/-- The variables of the container are the literal ones of the brick and the secret inputs, and named
apart exactly when no secret input has the name of a literal one. -/
structure NamesVariables (component : Component) (brick : Brick) (container : Container) : Prop where
  names : container.env.map EnvVar.name = brick.container.env.keys ++ component.secretInputs
  distinct_iff : (container.env.map EnvVar.name).Nodup ↔
    ∀ name ∈ component.secretInputs, brick.container.env.get? name = none

end Component

/-! ## Arguments -/

namespace Component

variable {composite component : Component} {claim : String × Node} {task : Task}

/-- Deliveries are apart when they are so on each of the channels. -/
theorem deliversApart_iff {id : String} :
    composite.DeliversApart id ↔
      ∀ channel, ((composite.deliveries id).filterMap (Delivery.nameOn? channel)).Nodup := by
  have hchannel : ∀ channel,
      ((composite.deliveries id).filterMap (Delivery.nameOn? channel)).Nodup ↔
        (composite.deliveries id).Pairwise fun first second =>
          first.passing.channel = channel → second.passing.channel = channel →
            first.target ≠ second.target := by
    intro channel
    rw [List.Nodup, List.pairwise_filterMap]
    simp only [Delivery.nameOn?_eq_some]
    refine List.Pairwise.iff fun first second => ⟨fun h hfirst hsecond => ?_, ?_⟩
    · exact h _ ⟨hfirst, rfl⟩ _ ⟨hsecond, rfl⟩
    · rintro h _ ⟨hfirst, rfl⟩ _ ⟨hsecond, rfl⟩
      exact h hfirst hsecond
  simp only [hchannel]
  constructor
  · intro h channel
    exact h.imp fun happart hfirst hsecond => happart (hfirst.trans hsecond.symm)
  · intro h
    refine ((h .parameter).and (h .artifact)).imp fun {first second} hboth hsame => ?_
    cases hsecond : second.passing.channel with
    | parameter => exact hboth.1 (hsame.trans hsecond) hsecond
    | artifact => exact hboth.2 (hsame.trans hsecond) hsecond

theorem RunsAt.namesArguments (h : composite.RunsAt claim task) :
    composite.NamesArguments claim task where
  names := h.names
  distinct_iff := by
    rw [deliversApart_iff]
    exact forall_congr' fun channel => by rw [h.names]

/-! ## Variables -/

/-- A container has the literal variables of its brick, and then a variable for each secret input. -/
theorem names_env {settings : Settings} {scopes : Scopes} {template : Manifest.Template}
    {container : Container} {brick : Brick} (hbrick : component.implementation = .brick brick)
    (h : component.template settings scopes = .ok template)
    (hcontainer : template.container = some container) :
    container.env.map EnvVar.name = brick.container.env.keys ++ component.secretInputs := by
  rw [Component.template, hbrick] at h
  obtain ⟨rendered, vars, outputs, -, hvars, -, rfl⟩ := Brick.template_eq_ok.1 h
  obtain rfl := Option.some.inj hcontainer
  rw [List.map_append, SecretScope.names_variables hvars, List.map_map, secretInputs]
  rfl

theorem namesVariables {settings : Settings} {scopes : Scopes} {template : Manifest.Template}
    {container : Container} {brick : Brick} (hvalid : component.validate = .ok ())
    (hbrick : component.implementation = .brick brick)
    (h : component.template settings scopes = .ok template)
    (hcontainer : template.container = some container) :
    component.NamesVariables brick container where
  names := names_env hbrick h hcontainer
  distinct_iff := by
    rw [names_env hbrick h hcontainer, List.nodup_append']
    simp only [brick.container.env.nodup_keys, nodup_secretInputs hvalid, true_and,
      KeyMap.get?_eq_none]
    exact List.disjoint_comm

end Component

/-! ## Jobs -/

/-- **When names are distinct.** In the manifest of a job, the tasks of a template are one for each
node of a composite of the tree. The arguments of a task are named by what the mappings and the edges
deliver to its node, and no two parameters and no two artifacts of it have one name exactly when no
two of these deliver to one input on one channel. The variables of a container are named by the
literals of its brick and by the secret inputs, and no two have one name exactly when no secret input
is named as a literal. -/
theorem Job.names_distinct_iff {job : Job} {settings : Settings} {workflow : Manifest.Workflow}
    (hok : job.lower settings = .ok workflow) :
    ∃ root, job.root = .ok root ∧ ∀ template ∈ workflow.spec.templates,
      (∀ dag, template.dag = some dag → ∃ composite, root.Denotes template composite ∧
        List.Forall₂ composite.NamesArguments composite.claimants dag.tasks) ∧
      ∀ container, template.container = some container →
        ∃ component brick, root.Denotes template component ∧
          component.implementation = .brick brick ∧ component.NamesVariables brick container := by
  obtain ⟨root, seed, templates, hroot, -, htemplates, -, hkept⟩ := Job.exists_seed hok
  have hvalid := Component.valid_of_templates htemplates
  refine ⟨root, hroot, fun template hmem => ?_⟩
  obtain ⟨visit, hreaches, htemplate⟩ := Component.exists_visit_of_mem htemplates (hkept _ hmem)
  have hdenotes : root.Denotes template visit.component :=
    ⟨hreaches.within, Component.template_name htemplate⟩
  have hinner := hreaches.within.valid hvalid
  refine ⟨fun dag hdag => ⟨visit.component, hdenotes, ?_⟩, fun container hcontainer => ?_⟩
  · have hruns := Component.runsAt_of_template (Component.wellWired hinner) htemplate hdag
    exact hruns.imp fun _ _ hrun => hrun.namesArguments
  · obtain ⟨brick, hbrick, -⟩ := Component.exists_brick htemplate hcontainer
    exact ⟨visit.component, brick, hdenotes, hbrick,
      Component.namesVariables hinner hbrick htemplate hcontainer⟩

/-! ## Two values and a secret -/

namespace Component

/-- A brick with two strings, a secret and a literal variable. -/
def pairBrick (literal : String) : Component :=
  let container := { ContainerSpec.ofImage "alpine" with env := KeyMap.empty.insert literal "1" }
  let brick : Brick := ⟨container, [.port "left", .port "right"], []⟩
  { ofImplementation (.repeating 1) "brick" (.brick brick) with
    inputs := [⟨"left", .parameter⟩, ⟨"right", .parameter⟩, ⟨"token", .envSecret⟩] }

/-- A graph that hands all three on to the brick, the second string to the given input. -/
def pairGraph (target literal : String) : Component :=
  let graph : Graph :=
    ⟨[⟨"use", .inline (pairBrick literal)⟩], [],
      [⟨"left", ⟨"use", "left"⟩⟩, ⟨"right", ⟨"use", target⟩⟩, ⟨"token", ⟨"use", "token"⟩⟩], []⟩
  { ofImplementation (.repeating 2) "graph" (.graph graph) with
    inputs := (pairBrick literal).inputs }

theorem pairGraph_faithfulIds (target literal : String) :
    (pairGraph target literal).FaithfulIds := by
  refine .of_members (List.mem_cons_self (l := [pairBrick literal])) ?_ ?_
  · show [pairBrick literal] ⊆ [pairGraph target literal, pairBrick literal]
    exact List.subset_cons_self _ _
  · show [ComponentId.repeating 2, ComponentId.repeating 1].Nodup
    decide

end Component

/-- A job with a value for each of the three. -/
def pairJob (target literal : String) : Job where
  workflow := ⟨.repeating 9, "job", "space", .inline (.pairGraph target literal)⟩
  inputs :=
    [⟨"left", .text "1"⟩, ⟨"right", .text "2"⟩,
      ⟨"token", .text "\x7b\"name\":\"store\",\"key\":\"token\"\x7d"⟩]

/-- Where each string has an input of its own, and the literal variable another name than the secret,
all names are distinct. -/
theorem pairJob_distinct :
    ∃ workflow, (pairJob "right" "mode").lower .default = .ok workflow ∧
      (∃ template ∈ workflow.spec.templates, ∃ dag ∈ template.dag, ∃ task ∈ dag.tasks,
        task.arguments.names .parameter = ["left", "right"] ∧
        ∀ channel, (task.arguments.names channel).Nodup) ∧
      ∃ template ∈ workflow.spec.templates, ∃ container ∈ template.container,
        container.env.map EnvVar.name = ["mode", "token"] ∧
        (container.env.map EnvVar.name).Nodup := by
  have hlowered : ∃ workflow, (pairJob "right" "mode").lower .default = .ok workflow ∧
      (∃ template ∈ workflow.spec.templates, template.name = (ComponentId.repeating 2).text ∧
        template.dag.isSome = true) ∧
      ∃ template ∈ workflow.spec.templates, template.name = (ComponentId.repeating 1).text ∧
        template.container.isSome = true := by
    rw [← exists_ok_iff]
    decide +kernel
  obtain ⟨workflow, hok, ⟨caller, hcaller, hcallerName, hdag⟩, callee, hcallee, hcalleeName,
    hcontainer⟩ := hlowered
  obtain ⟨dag, hdag⟩ := Option.isSome_iff_exists.1 hdag
  obtain ⟨container, hcontainer⟩ := Option.isSome_iff_exists.1 hcontainer
  obtain ⟨root, hroot, hnames⟩ := Job.names_distinct_iff hok
  obtain rfl : Component.pairGraph "right" "mode" = root := Except.ok.inj hroot
  have hids := Component.pairGraph_faithfulIds "right" "mode"
  refine ⟨workflow, hok, ⟨caller, hcaller, dag, hdag, ?_⟩, callee, hcallee, container, hcontainer, ?_⟩
  · obtain ⟨composite, hdenotes, htasks⟩ := (hnames caller hcaller).1 dag hdag
    obtain rfl := hdenotes.unique hids ⟨.refl _, hcallerName⟩
    obtain ⟨task, htask, hnamed⟩ := exists_related htasks List.mem_cons_self
    exact ⟨task, htask, hnamed.names .parameter, hnamed.distinct_iff.2 (by decide)⟩
  · obtain ⟨component, brick, hdenotes, hbrick, hnamed⟩ :=
      (hnames callee hcallee).2 container hcontainer
    have hchild : (Component.pairGraph "right" "mode").HasChild (.pairBrick "mode") :=
      ⟨⟨"use", .inline (.pairBrick "mode")⟩, List.mem_cons_self, rfl⟩
    obtain rfl := hdenotes.unique hids ⟨(Component.Within.refl _).child hchild, hcalleeName⟩
    obtain rfl := Implementation.brick.inj hbrick
    exact ⟨hnamed.names, hnamed.distinct_iff.2 (by decide)⟩

/-- Both strings are passed under the name of the first where both are mapped to it, and the secret is
read into a variable that the container has already. -/
theorem pairJob_repeats :
    ∃ workflow, (pairJob "left" "token").lower .default = .ok workflow ∧
      (∃ template ∈ workflow.spec.templates, ∃ dag ∈ template.dag, ∃ task ∈ dag.tasks,
        task.arguments.names .parameter = ["left", "left"]) ∧
      ∃ template ∈ workflow.spec.templates, ∃ container ∈ template.container,
        container.env.map EnvVar.name = ["token", "token"] := by
  rw [← exists_ok_iff]
  decide +kernel

end Pipeline
