/-
The branches of a conditional are called alike.

The task of the second branch is a copy of that of the first one, and the scopes of both
are narrowed by the bindings of the first one, each to the inputs that its own component
declares. What the components have in common is a set of ports: the check compares no
orders. That is enough, since the volume of an input is claimed for that input alone, so
a scope does not depend on the order in which inputs are asked for
(`Visit.HandsTo.scopes_eq_of_sameInputs`).

An output is mapped from the first branch, and the expression that selects it has to find
its counterpart in the second one. A mapping from there to the same output is looked for
among all mappings, and without one the port is taken to have the same name
(`Conditional.readsOtherwise`).
-/
import Pipeline.Proofs.Handover
import Pipeline.Proofs.OutputSources
import Pipeline.Proofs.SharedTemplates

set_option autoImplicit false

namespace Pipeline

open Manifest (Arguments Dag Task Template)

/-! ## What is meant -/

/-- How an expression refers to an output of a task. -/
def Channel.reference : Channel → String → String → String
  | .parameter => Reference.taskParameter
  | .artifact => Reference.taskArtifact

namespace Conditional

/-- What is read for an output when the condition fails, beside what a mapping of the first branch
reads when it holds. -/
inductive ReadsOtherwise (conditional : Conditional) (settings : Settings) (channel : Channel)
    (mapping : OutputMapping) : String → Prop where
  /-- There is no second branch. -/
  | nothing (hnode : conditional.nodeFalse = none) :
      ReadsOtherwise conditional settings channel mapping "''"
  /-- The second branch is mapped to the output as well; the first such mapping counts. -/
  | mapped {node : Node} {other : OutputMapping} {before after : List OutputMapping}
      (hnode : conditional.nodeFalse = some node)
      (hmappings : conditional.outputMappings = before ++ other :: after)
      (hother : other.source.node = node.id ∧ other.target = mapping.target)
      (hfirst : ∀ earlier ∈ before,
        ¬(earlier.source.node = node.id ∧ earlier.target = mapping.target)) :
      ReadsOtherwise conditional settings channel mapping
        (channel.reference settings.falseTaskName other.source.port)
  /-- No mapping leads from the second branch to the output. -/
  | sameName {node : Node} (hnode : conditional.nodeFalse = some node)
      (hnone : ∀ other ∈ conditional.outputMappings,
        ¬(other.source.node = node.id ∧ other.target = mapping.target)) :
      ReadsOtherwise conditional settings channel mapping
        (channel.reference settings.falseTaskName mapping.source.port)

/-- The expression selects an output: what its last mapping from the first branch reads when the
condition holds, and what is read otherwise. -/
def Selects (conditional : Conditional) (component : Component) (settings : Settings)
    (channel : Channel) (name expression : String) : Prop :=
  ∃ condition mapping otherwise,
    conditional.condition.expressionText component.inputs = .ok condition ∧
    OutputMapping.last? conditional.outputMappingsTrue name = some mapping ∧
    conditional.ReadsOtherwise settings channel mapping otherwise ∧
    expression = condition ++ " ? " ++
      channel.reference settings.trueTaskName mapping.source.port ++ " : " ++ otherwise

/-- The outputs are those of the component, and each one to which a mapping leads is selected by an
expression. -/
structure SelectsOutputs (conditional : Conditional) (component : Component) (settings : Settings)
    (outputs : Arguments) : Prop where
  names : ∀ channel, outputs.names channel = Port.namesOn channel component.outputs
  parameters : ∀ parameter ∈ outputs.parameters,
    (∃ mapping ∈ conditional.outputMappings, mapping.target = parameter.name) →
      ∃ expression, conditional.Selects component settings .parameter parameter.name expression ∧
        parameter.source = some (.ofExpression expression)
  artifacts : ∀ artifact ∈ outputs.artifacts,
    (∃ mapping ∈ conditional.outputMappings, mapping.target = artifact.name) →
      ∃ expression, conditional.Selects component settings .artifact artifact.name expression ∧
        artifact.expression = some expression

/-- The branch at a node is visited, with what is handed to it by the bindings of the first
branch. -/
def VisitsBranch (conditional : Conditional) (visit : Visit) (node : Node) (next : Visit) : Prop :=
  visit.Leads next ∧ visit.HandsTo (conditional.nodeTrue.id, node) next

/-- The first branch is visited and called, under a guard. The second one, if there is one, is
visited under the same scopes, and its task is the same but for name, template and guard. -/
structure CallsAlike (conditional : Conditional) (settings : Settings) (visit visitTrue : Visit)
    (guardText : String) (first : Task) (tasks : List Task) : Prop where
  visited : conditional.VisitsBranch visit conditional.nodeTrue visitTrue
  guarded : conditional.condition.guardText visit.component.inputs = .ok guardText
  name : first.name = settings.trueTaskName
  template : first.template = visitTrue.component.id.text
  runsWhen : first.runsWhen = some guardText
  alone : conditional.nodeFalse = none → tasks = [first]
  both : ∀ node, conditional.nodeFalse = some node → ∃ visitFalse : Visit,
    conditional.VisitsBranch visit node visitFalse ∧ visitFalse.scopes = visitTrue.scopes ∧
      tasks = [first, { first with
        name := settings.falseTaskName
        template := visitFalse.component.id.text
        runsWhen := some ("!(" ++ guardText ++ ")") }]

end Conditional

/-! ## Scopes -/

namespace Visit.HandsTo

variable {visit next other : Visit} {claimant : String} {node node' : Node}

/-- What a child finds under the bindings of a claimant, another one finds that declares the input
as well: a claim does not depend on who asks for it. -/
theorem volume_of_declared (hnext : visit.HandsTo (claimant, node) next)
    (hother : visit.HandsTo (claimant, node') other)
    (hinputs : ∀ port ∈ next.component.inputs, port ∈ other.component.inputs)
    {inner volume : String} (hinner : next.scopes.volumes.get? inner = some volume) :
    other.scopes.volumes.get? inner = some volume := by
  obtain ⟨hport, outer, houter, hvolume⟩ := hnext.exists_claim hinner
  obtain ⟨outer', found, houter', hfound, hinner'⟩ := hother.exists_volume (hinputs _ hport)
  obtain rfl := Except.ok.inj (houter.symm.trans houter')
  rw [hinner', ← hfound, hvolume]

/-- Children with the same inputs are handed the same by the bindings of one claimant. -/
theorem scopes_eq_of_sameInputs (hnext : visit.HandsTo (claimant, node) next)
    (hother : visit.HandsTo (claimant, node') other)
    (hinputs : ∀ port, port ∈ next.component.inputs ↔ port ∈ other.component.inputs) :
    next.scopes = other.scopes := by
  have hsecrets : next.scopes.secrets = other.scopes.secrets :=
    hnext.scopes_eq.1.trans hother.scopes_eq.1.symm
  have hvolumes : next.scopes.volumes = other.scopes.volumes := by
    refine KeyMap.ext_get? fun inner => Option.ext fun volume => ⟨?_, ?_⟩
    · exact hnext.volume_of_declared hother fun port => (hinputs port).1
    · exact hother.volume_of_declared hnext fun port => (hinputs port).2
  obtain ⟨_, _, _⟩ := next
  obtain ⟨_, _, _⟩ := other
  exact congrArg₂ Scopes.mk hsecrets hvolumes

end Visit.HandsTo

/-! ## Tasks -/

namespace Conditional

variable {conditional : Conditional} {settings : Settings} {template : Template}

/-- A composite that is lowered visits the branches of its conditional. -/
theorem exists_visitsBranch {visit : Visit} {templates : List Template}
    (hconditional : visit.component.implementation = .conditional conditional)
    (h : visit.allTemplates settings = .ok templates) {node : Node}
    (hnode : node ∈ conditional.branches) :
    ∃ next, conditional.VisitsBranch visit node next := by
  obtain ⟨_, _, -, -, -, hclaims⟩ := Visit.allTemplates_eq_ok h
  have hclaim : (conditional.nodeTrue.id, node) ∈ visit.component.claimants := by
    rw [Component.claimants, hconditional]
    exact List.mem_map_of_mem hnode
  obtain ⟨next, hhands, -⟩ := hclaims _ hclaim
  exact ⟨next, ⟨_, hclaim, hhands⟩, hhands⟩

theorem exists_callsAlike {visit : Visit} {templates : List Template} {dag : Dag}
    (hconditional : visit.component.implementation = .conditional conditional)
    (hall : visit.allTemplates settings = .ok templates)
    (h : conditional.template visit.component settings = .ok template)
    (hdag : template.dag = some dag) :
    ∃ visitTrue guardText first,
      conditional.CallsAlike settings visit visitTrue guardText first dag.tasks := by
  obtain ⟨whenTrue, whenFalse, guardText, wired, _, -, hwhenTrue, hwhenFalse, hguard, hwired, -,
    rfl⟩ := template_eq_ok.1 h
  obtain rfl := Option.some.inj hdag
  have hsame := Task.SameCall.wireInputs hwired
  obtain ⟨visitTrue, htrue⟩ := exists_visitsBranch hconditional hall List.mem_cons_self
  obtain rfl : whenTrue = visitTrue.component := Option.some.inj (hwhenTrue.symm.trans htrue.2.1)
  refine ⟨visitTrue, guardText, { wired with runsWhen := some guardText }, htrue, hguard,
    hsame.name, hsame.template, rfl, fun hnone => ?_, fun node hnode => ?_⟩
  · rcases componentFalse_eq_ok.1 hwhenFalse with ⟨-, rfl⟩ | ⟨_, _, hsome, -⟩
    · rfl
    · rw [hnone] at hsome
      cases hsome
  · rcases componentFalse_eq_ok.1 hwhenFalse with
      ⟨hnone, -⟩ | ⟨nodeFalse, child, hsome, hchild, hinputs, -, rfl⟩
    · rw [hnone] at hnode
      cases hnode
    · obtain rfl := Option.some.inj (hsome.symm.trans hnode)
      obtain ⟨visitFalse, hfalse⟩ := exists_visitsBranch hconditional hall
        (List.mem_cons_of_mem _ (Option.mem_toList.2 hsome))
      obtain rfl : child = visitFalse.component := Option.some.inj (hchild.symm.trans hfalse.2.1)
      refine ⟨visitFalse, hfalse, ?_, rfl⟩
      refine hfalse.2.scopes_eq_of_sameInputs htrue.2 fun port => ?_
      exact (Port.sameSet_iff.1 hinputs port).symm

/-! ## Outputs -/

/-- What the expression has for the case that the condition fails. -/
theorem readsOtherwise (conditional : Conditional) (settings : Settings) (channel : Channel)
    (mapping : OutputMapping) :
    conditional.ReadsOtherwise settings channel mapping
      (((conditional.portFalse mapping).map (channel.reference settings.falseTaskName)).getD
        "''") := by
  rw [portFalse]
  cases hnode : conditional.nodeFalse with
  | none => exact .nothing hnode
  | some node =>
    cases hfind : conditional.outputMappings.find? fun other =>
      other.source.node = node.id ∧ other.target = mapping.target with
    | none =>
      simp only [Option.map_some, hfind, Option.getD_some]
      refine .sameName hnode fun other hother => ?_
      simpa only [decide_eq_true_eq] using List.find?_eq_none.1 hfind other hother
    | some other =>
      obtain ⟨hother, before, after, hmappings, hbefore⟩ := List.find?_eq_some_iff_append.1 hfind
      simp only [Option.map_some, hfind, Option.getD_some]
      refine .mapped hnode hmappings (of_decide_eq_true hother) fun earlier hearlier => ?_
      simpa only [Bool.not_eq_true', decide_eq_false_iff_not] using hbefore earlier hearlier

/-- The expression that a conditional writes for an output selects it. -/
theorem selects_select {component : Component} {name condition : String} {mapping : OutputMapping}
    (hcondition : conditional.condition.expressionText component.inputs = .ok condition)
    (hlast : OutputMapping.last? conditional.outputMappingsTrue name = some mapping)
    (channel : Channel) :
    conditional.Selects component settings channel name
      (Condition.select condition (channel.reference settings.trueTaskName mapping.source.port)
        ((conditional.portFalse mapping).map (channel.reference settings.falseTaskName))) :=
  ⟨condition, mapping, _, hcondition, hlast, readsOtherwise conditional settings channel mapping,
    rfl⟩

/-- Each source in a conditional is such an expression. -/
theorem exists_mapping_of_supplies {component : Component} {name : String} {source : OutputSource}
    {reads : List OutputRead} (hconditional : component.implementation = .conditional conditional)
    (h : component.Supplies settings name source reads) :
    ∃ condition mapping, conditional.condition.expressionText component.inputs = .ok condition ∧
      OutputMapping.last? conditional.outputMappingsTrue name = some mapping ∧
      source = .ofBranches condition settings.trueTaskName mapping.source.port
        settings.falseTaskName (conditional.portFalse mapping) := by
  cases h with
  | file hbrick _ => cases hbrick.symm.trans hconditional
  | node hgraph _ _ => cases hgraph.symm.trans hconditional
  | map hmap _ => cases hmap.symm.trans hconditional
  | branches hbranches hlast hexpression =>
    obtain rfl := Implementation.conditional.inj (hbranches.symm.trans hconditional)
    exact ⟨_, _, hexpression, hlast, rfl⟩

theorem selectsOutputs {component : Component} {scopes : Scopes}
    (hconditional : component.implementation = .conditional conditional)
    (hvalid : component.validate = .ok ())
    (h : component.template settings scopes = .ok template) :
    conditional.SelectsOutputs component settings template.outputs := by
  have hwiring : component.wiring = conditional.wiring := Component.wiring_eq hconditional
  obtain ⟨source?, hsourced⟩ := Component.exists_outputsSourced hvalid h
  have hmapped : ∀ channel, ∀ name ∈ Port.namesOn channel component.outputs,
      (∃ mapping ∈ conditional.outputMappings, mapping.target = name) →
        ∃ source, source? name = some source := by
    intro channel name hname hmapping
    have hsome := (hsourced.isSome_iff channel name hname).2 fun _ => by rwa [hwiring]
    exact Option.isSome_iff_exists.1 hsome
  refine ⟨fun channel => (Component.names_of_template h channel).2, ?_, ?_⟩
  · intro parameter hparameter hmapping
    rw [hsourced.outputs] at hparameter
    obtain ⟨name, hname, rfl⟩ := List.mem_map.1 hparameter
    obtain ⟨source, hsource⟩ := hmapped .parameter name hname hmapping
    obtain ⟨reads, hsupplies⟩ := hsourced.supplies name source hsource
    obtain ⟨condition, mapping, hcondition, hlast, rfl⟩ :=
      exists_mapping_of_supplies hconditional hsupplies
    refine ⟨_, selects_select hcondition hlast .parameter, ?_⟩
    rw [OutputSource.declareParameter, hsource]
    rfl
  · intro artifact hartifact hmapping
    rw [hsourced.outputs] at hartifact
    obtain ⟨name, hname, rfl⟩ := List.mem_map.1 hartifact
    cases hsource : source? name with
    | none =>
      rw [hsource] at hmapping
      obtain ⟨source, hsome⟩ := hmapped .artifact name hname hmapping
      cases hsource.symm.trans hsome
    | some source =>
      obtain ⟨reads, hsupplies⟩ := hsourced.supplies name source hsource
      obtain ⟨condition, mapping, hcondition, hlast, rfl⟩ :=
        exists_mapping_of_supplies hconditional hsupplies
      exact ⟨_, selects_select hcondition hlast .artifact, rfl⟩

end Conditional

/-! ## Trees -/

namespace Component

variable {root : Component} {settings : Settings} {scopes : Scopes} {templates : List Template}
variable {visit : Visit} {conditional : Conditional} {template : Template}

/-- The template of a conditional is kept, wherever it was first made: it does not depend on
scopes. -/
theorem mem_templates_of_conditional (hids : root.FaithfulIds)
    (hok : root.templates settings scopes = .ok templates)
    (hreaches : Visit.Reaches ⟨root, scopes⟩ visit)
    (hconditional : visit.component.implementation = .conditional conditional)
    (htemplate : visit.template settings = .ok template) : template ∈ templates := by
  obtain ⟨repeats, hrepeats, rfl⟩ := templates_eq_ok hok
  obtain ⟨first, kept, -, hsame, hkept, hname, -⟩ := exists_kept hids hrepeats hreaches
  rw [Visit.template, Component.template, hsame, hconditional] at hkept
  rw [Visit.template, Component.template, hconditional] at htemplate
  obtain rfl : kept = template := Except.ok.inj (hkept.symm.trans htemplate)
  refine Template.mem_distinct.2 ?_
  rwa [Template.name_of_ofName? hname]

/-- **Both branches are called alike.** Wherever a conditional is visited while a tree is lowered,
it has a template with a task for each of its branches. The second task is a copy of the first one
under another name, which calls the other branch and is guarded by the opposite. Both branches are
visited under the same scopes. And an output to which a mapping leads is taken from the branch that
runs: where that is the second one, from its port that is first mapped to the output, or else from
that of the same name. -/
theorem branches_called_alike (hok : root.templates settings scopes = .ok templates)
    (hreaches : Visit.Reaches ⟨root, scopes⟩ visit)
    (hconditional : visit.component.implementation = .conditional conditional) :
    ∃ template dag visitTrue guardText first,
      visit.template settings = .ok template ∧ (root.FaithfulIds → template ∈ templates) ∧
      template.dag = some dag ∧
      conditional.CallsAlike settings visit visitTrue guardText first dag.tasks ∧
      conditional.SelectsOutputs visit.component settings template.outputs := by
  have hvalid := hreaches.within.valid (valid_of_templates hok)
  obtain ⟨repeats, hrepeats, -⟩ := templates_eq_ok hok
  obtain ⟨result, hresult⟩ := hreaches.exists_allTemplates hrepeats
  obtain ⟨template, htemplate⟩ := hreaches.exists_template hrepeats
  have h := htemplate
  rw [Visit.template, Component.template, hconditional] at h
  obtain ⟨dag, hdag⟩ : ∃ dag, template.dag = some dag := by
    obtain ⟨_, _, _, _, _, -, -, -, -, -, -, rfl⟩ := Conditional.template_eq_ok.1 h
    exact ⟨_, rfl⟩
  obtain ⟨visitTrue, guardText, first, hcalls⟩ :=
    Conditional.exists_callsAlike hconditional hresult h hdag
  exact ⟨template, dag, visitTrue, guardText, first, htemplate,
    fun hids => mem_templates_of_conditional hids hok hreaches hconditional htemplate, hdag, hcalls,
    Conditional.selectsOutputs hconditional hvalid htemplate⟩

/-! ## Branches that declare their ports in different orders -/

/-- A brick that works on a disk and reports twice. -/
def reportBrick (number : Nat) (inputs : List Port) : Component :=
  let brick : Brick :=
    ⟨.ofImage "alpine", [.port "in"], [⟨"a", .file "/tmp/a"⟩, ⟨"b", .file "/tmp/b"⟩]⟩
  { ofImplementation (.repeating number) "brick" (.brick brick) with
    inputs := inputs
    outputs := [⟨"a", .parameter⟩, ⟨"b", .parameter⟩] }

/-- The first branch. -/
def reportFirst : Component := reportBrick 1 [⟨"in", .parameter⟩, ⟨"disk", .volume⟩]

/-- The second branch, with the same inputs. -/
def reportSecond : Component := reportBrick 2 [⟨"disk", .volume⟩, ⟨"in", .parameter⟩]

/-- One report is taken from different ports of the branches, and the other one from the same. -/
def reportChoice : Component :=
  let conditional : Conditional :=
    ⟨⟨"yes", .inline reportFirst⟩, some ⟨"no", .inline reportSecond⟩,
      ⟨.data ⟨"in", .parameter⟩, .gt, .literal "0"⟩,
      [⟨"in", ⟨"yes", "in"⟩⟩, ⟨"disk", ⟨"yes", "disk"⟩⟩],
      [⟨⟨"yes", "a"⟩, "first"⟩, ⟨⟨"no", "b"⟩, "first"⟩, ⟨⟨"yes", "b"⟩, "second"⟩]⟩
  { ofImplementation (.repeating 3) "choice" (.conditional conditional) with
    inputs := [⟨"in", .parameter⟩, ⟨"disk", .volume⟩]
    outputs := [⟨"first", .parameter⟩, ⟨"second", .parameter⟩] }

/-- A disk for the choice. -/
def reportScopes : Scopes := ⟨.empty, KeyMap.ofList [("disk", "v1")]⟩

/-- There are two tasks, and both of them call a brick that finds the disk. -/
theorem reportChoice_called_alike :
    ∃ templates, reportChoice.templates .default reportScopes = .ok templates ∧
      ∃ template ∈ templates, ∃ dag ∈ template.dag, ∃ first second guardText,
        dag.tasks = [first, second] ∧ second.arguments = first.arguments ∧
        first.template = reportFirst.id.text ∧ second.template = reportSecond.id.text ∧
        first.runsWhen = some guardText ∧ second.runsWhen = some ("!(" ++ guardText ++ ")") ∧
        Visit.Reaches ⟨reportChoice, reportScopes⟩ ⟨reportFirst, reportScopes⟩ ∧
        Visit.Reaches ⟨reportChoice, reportScopes⟩ ⟨reportSecond, reportScopes⟩ := by
  have hok : ∃ templates, reportChoice.templates .default reportScopes = .ok templates ∧ True := by
    rw [← exists_ok_iff]
    decide
  have hids : reportChoice.FaithfulIds := by
    refine .of_members (List.mem_cons_self (l := [reportFirst, reportSecond])) ?_ (by decide)
    exact List.subset_cons_self _ _
  obtain ⟨templates, hok, -⟩ := hok
  obtain ⟨template, dag, visitTrue, guardText, first, -, hmem, hdag, hcalls, -⟩ :=
    branches_called_alike hok .refl rfl
  obtain ⟨⟨component, scopes⟩, ⟨hleads, hhands⟩, hscopes, htasks⟩ := hcalls.both _ rfl
  have hfirst : Visit.HandsTo ⟨reportChoice, reportScopes⟩ ("yes", ⟨"yes", .inline reportFirst⟩)
      ⟨reportFirst, reportScopes⟩ := ⟨rfl, rfl⟩
  obtain rfl := hcalls.visited.2.unique hfirst
  obtain rfl : reportSecond = component := Option.some.inj hhands.1
  obtain rfl : scopes = reportScopes := hscopes
  exact ⟨templates, hok, template, hmem hids, dag, hdag, first, _, guardText, htasks, rfl,
    hcalls.template, rfl, hcalls.runsWhen, rfl, .tail .refl hcalls.visited.1, .tail .refl hleads⟩

end Component

end Pipeline
