/-
Fan-out: the list over which a task runs, where there is one.

Lists reach a task from two sides, from inputs of the composite that hold a list and
from bricks that put one out. Each of them turns the task into one that runs for every
element, so all that reach it have to be the same list. Lists are compared as they are
written down: one that arrives twice is one list.

Connections whose ends are there do nothing but deliver (`Task.receive`), so a task that
is wired has gone through its deliveries, one after another. What it remembers between
two of them is the list that it has met, and it stops at the first other one
(`Task.receiveAll_cases`). So neither the order of the lists nor what else arrives
between them matters.
-/
import Mathlib.Data.Finset.Card
import Mathlib.Data.Finset.Option
import Pipeline.Proofs.Deliveries

set_option autoImplicit false

namespace Pipeline

open Manifest (Parameter Task)

/-! ## What is meant -/

/-- A list that reaches a task: how it is written down, and the input that is given its elements. -/
structure ListSource where
  reference : String
  target : String
  deriving DecidableEq

/-- The lists themselves. -/
def ListSource.references (sources : List ListSource) : Finset String :=
  (sources.map reference).toFinset

/-- The list that a mapping takes from an input of the composite. -/
def InputMapping.listSource? (composite : Component) (mapping : InputMapping) : Option ListSource :=
  match composite.input? mapping.source with
  | some ⟨_, .parameterArray⟩ =>
    some ⟨Placeholder.inputParameter mapping.source, mapping.target.port⟩
  | _ => none

/-- The list that an edge takes from a brick. What a composite puts out is passed on as a whole. -/
def Edge.listSource? (graph : Graph) (edge : Edge) : Option ListSource :=
  (graph.component? edge.source.node).bind fun sibling =>
    match sibling.implementation, sibling.output? edge.source.port with
    | .brick _, some ⟨_, .parameterArray⟩ =>
      some ⟨Placeholder.taskParameter edge.source.node edge.source.port, edge.target.port⟩
    | _, _ => none

namespace Component

/-- The lists that reach a child by these connections, in order. -/
def listSources (composite : Component) (mappings : List InputMapping) (edges : List Edge) :
    List ListSource :=
  mappings.filterMap (InputMapping.listSource? composite) ++
    edges.filterMap (Edge.listSource? composite.wiring)

/-- Both ends of every connection to a child are there, and no secret comes along an edge. -/
structure EndsThere (composite child : Component) (mappings : List InputMapping)
    (edges : List Edge) : Prop where
  inputs : ∀ mapping ∈ mappings,
    (∃ port, composite.input? mapping.source = some port) ∧
      ∃ port, child.input? mapping.target.port = some port
  outputs : ∀ edge ∈ edges,
    (∃ sibling port, composite.wiring.component? edge.source.node = some sibling ∧
      sibling.output? edge.source.port = some port ∧ port.type ≠ .envSecret) ∧
      ∃ port, child.input? edge.target.port = some port

/-- The work that wires the task of a child, under its name and with its connections: at a node of a
graph, at the node of a map, and at the first branch of a conditional. -/
inductive Wires (composite : Component) (settings : Settings) (child : Component) :
    String → List InputMapping → List Edge → Lowered Task → Prop where
  | node {graph : Graph} {node : Node} (hgraph : composite.implementation = .graph graph)
      (hnode : node ∈ graph.nodes) (hchild : node.component? = some child) :
      Wires composite settings child node.id
        (graph.inputMappings.filter (·.target.node = node.id)) (graph.incoming node.id)
        (graph.task composite node)
  | map {map : MapBlock} (hmap : composite.implementation = .map map)
      (hchild : map.node.component? = some child) :
      Wires composite settings child settings.mapTaskName map.inputMappings []
        (map.task composite settings)
  | branch {conditional : Conditional}
      (hconditional : composite.implementation = .conditional conditional)
      (hchild : conditional.nodeTrue.component? = some child) :
      Wires composite settings child settings.trueTaskName
        (conditional.inputMappings.filter (·.target.node = conditional.nodeTrue.id)) []
        (Task.wireInputs composite child (.calling settings.trueTaskName child.id.text)
          (conditional.inputMappings.filter (·.target.node = conditional.nodeTrue.id)))

end Component

/-- The task runs over the one list that reaches it, if any does. The inputs that are given its
elements are those that it reaches, and all others are given a value as a whole. -/
structure Manifest.Task.FansOut (sources : List ListSource) (task : Task) : Prop where
  list : task.withParam.toFinset = ListSource.references sources
  elements : (task.arguments.parameters.filter (·.value = some Placeholder.item)).map
      Parameter.name =
    sources.map ListSource.target
  others : ∀ parameter ∈ task.arguments.parameters, parameter.value ≠ some Placeholder.item →
    ∃ origin : Origin, parameter.value = some (origin.placeholder .parameter)

/-! ## One delivery -/

/-- The current element of a list is written like no other value. -/
theorem Origin.placeholder_ne_item (origin : Origin) (channel : Channel) :
    origin.placeholder channel ≠ Placeholder.item := by
  intro h
  have htext := congrArg String.toList h
  cases origin <;> cases channel <;>
    simp [placeholder, Placeholder.item, Placeholder.inputParameter, Placeholder.inputArtifact,
      Placeholder.taskParameter, Placeholder.taskArtifact, Placeholder.braced] at htext

/-- The list that is delivered. -/
def Delivery.listSource? (delivery : Delivery) : Option ListSource :=
  match delivery.passing with
  | .each => some ⟨delivery.origin.placeholder .parameter, delivery.target⟩
  | .whole | .artifact => none

namespace Manifest.Task

/-- The task is given what is delivered. -/
def receive (task : Task) (delivery : Delivery) : Lowered Task :=
  match delivery.passing with
  | .whole => .ok (task.passParameter delivery.target (delivery.origin.placeholder .parameter))
  | .each => task.fanOut delivery.target (delivery.origin.placeholder .parameter)
  | .artifact => .ok (task.passArtifact delivery.target (delivery.origin.placeholder .artifact))

/-- The task is given all that is delivered, in order. -/
def receiveAll (task : Task) (deliveries : List Delivery) : Lowered Task :=
  deliveries.foldlM receive task

theorem receiveAll_append (task : Task) (deliveries more : List Delivery) :
    task.receiveAll (deliveries ++ more) =
      (task.receiveAll deliveries >>= fun between => between.receiveAll more) :=
  List.foldlM_append

variable {task : Task} {parent child : Component} {graph : Graph}

/-- A mapping whose ends are there does nothing but deliver. -/
theorem wireInput_eq_receiveAll {mapping : InputMapping}
    (houter : ∃ port, parent.input? mapping.source = some port)
    (hinner : ∃ port, child.input? mapping.target.port = some port) :
    task.wireInput parent child mapping = task.receiveAll (mapping.delivery? parent).toList := by
  obtain ⟨⟨outerName, type⟩, houter⟩ := houter
  obtain ⟨⟨innerName, _⟩, hinner⟩ := hinner
  have hsource : outerName = mapping.source := key_of_find? houter
  have htarget : innerName = mapping.target.port := key_of_find? hinner
  rw [wireInput, Component.input_eq_ok.2 houter, Component.input_eq_ok.2 hinner,
    InputMapping.delivery?, houter, hsource, htarget]
  cases type with
  | parameterArray => exact (bind_pure _).symm
  | parameter | artifact | volume | envSecret => rfl

/-- So does an edge that carries no secret. -/
theorem wireEdge_eq_receiveAll {edge : Edge}
    (hsource : ∃ sibling port, graph.component? edge.source.node = some sibling ∧
      sibling.output? edge.source.port = some port ∧ port.type ≠ .envSecret)
    (hinner : ∃ port, child.input? edge.target.port = some port) :
    task.wireEdge graph child edge = task.receiveAll (edge.delivery? graph).toList := by
  obtain ⟨sibling, ⟨outputName, type⟩, hsibling, houtput, hopen⟩ := hsource
  obtain ⟨⟨innerName, _⟩, hinner⟩ := hinner
  have hname : outputName = edge.source.port := key_of_find? houtput
  have htarget : innerName = edge.target.port := key_of_find? hinner
  rw [wireEdge, Graph.component?_eq_some.1 hsibling, Edge.delivery?, hsibling, Option.bind_some,
    houtput, hname]
  show (inside sibling.id (sibling.output edge.source.port) >>= fun output =>
    inside child.id (child.input edge.target.port) >>= _) = _
  rw [Component.output_eq_ok.2 houtput, Component.input_eq_ok.2 hinner, hname, htarget]
  cases type with
  | parameter | artifact | volume => rfl
  | envSecret => exact absurd rfl hopen
  | parameterArray =>
    -- A brick passes on the elements of its list, and everything else the list as a whole.
    obtain ⟨_, _, _, _, _, _, _, _, implementation⟩ := sibling
    cases implementation with
    | brick brick => exact (bind_pure _).symm
    | graph _ | map _ | conditional _ | any => rfl

/-- Where every step does nothing but deliver, all of them do nothing but deliver. -/
theorem foldlM_eq_receiveAll {α : Type} {step : Task → α → Lowered Task}
    {deliver? : α → Option Delivery} {values : List α}
    (hstep : ∀ value ∈ values, ∀ task, step task value = task.receiveAll (deliver? value).toList)
    (task : Task) : values.foldlM step task = task.receiveAll (values.filterMap deliver?) := by
  induction values generalizing task with
  | nil => rfl
  | cons value values ih =>
    have hdeliveries : (value :: values).filterMap deliver? =
        (deliver? value).toList ++ values.filterMap deliver? := by
      cases hvalue : deliver? value with
      | none => rw [List.filterMap_cons_none hvalue, Option.toList_none, List.nil_append]
      | some delivery =>
        rw [List.filterMap_cons_some hvalue, Option.toList_some, List.singleton_append]
    rw [List.foldlM_cons, hdeliveries, receiveAll_append, hstep value List.mem_cons_self]
    refine bind_congr fun between => ?_
    exact ih (fun other hother => hstep other (List.mem_cons_of_mem _ hother)) between

end Manifest.Task

/-! ## All deliveries -/

namespace Manifest.Task

/-- Whatever the task fans out over and whatever is delivered to be fanned out over is one list. -/
def AgreesWith (task : Task) (deliveries : List Delivery) : Prop :=
  ∀ first ∈ task.withParam.toList ++ deliveries.filterMap Delivery.list?,
    ∀ second ∈ task.withParam.toList ++ deliveries.filterMap Delivery.list?, first = second

/-- A task fans out over a list when it does not already do so over another one. -/
theorem fanOut_cases (task : Task) (target items : String) :
    ((∀ held, task.withParam = some held → held = items) ∧
        task.fanOut target items =
          .ok { task.passParameter target Placeholder.item with withParam := some items }) ∨
      ((∃ held, task.withParam = some held ∧ held ≠ items) ∧
        task.fanOut target items = fault (.conflictingFanOut task.name)) := by
  rw [fanOut]
  cases hheld : task.withParam with
  | none => exact .inl ⟨nofun, rfl⟩
  | some held =>
    by_cases hsame : held = items
    · left
      refine ⟨?_, if_neg (by simpa using hsame)⟩
      intro other hother
      exact (Option.some.inj hother).symm.trans hsame
    · exact .inr ⟨⟨held, rfl, hsame⟩, if_pos (by simpa using hsame)⟩

/-- A task that has met no other list than the next one agrees with what is delivered as it does
when it remembers that list. -/
theorem agreesWith_cons_each {task fanned : Task} {origin : Origin} {target : String}
    {deliveries : List Delivery}
    (hsame : ∀ held, task.withParam = some held → held = origin.placeholder .parameter)
    (hfanned : fanned.withParam = some (origin.placeholder .parameter)) :
    task.AgreesWith (⟨.each, origin, target⟩ :: deliveries) ↔ fanned.AgreesWith deliveries := by
  have hmet : ∀ items, items ∈ task.withParam.toList ++
        (⟨.each, origin, target⟩ :: deliveries).filterMap Delivery.list? ↔
      items ∈ [origin.placeholder .parameter] ++ deliveries.filterMap Delivery.list? := by
    intro items
    rw [List.mem_append, Option.mem_toList]
    exact or_iff_right_of_imp fun hheld => hsame items hheld ▸ List.mem_cons_self
  rw [AgreesWith, AgreesWith, hfanned, Option.toList_some]
  simp only [hmet]

/-- A task can be given all that is delivered when the lists are one list, and otherwise fails in
its own name. -/
theorem receiveAll_cases (task : Task) (deliveries : List Delivery) :
    (task.AgreesWith deliveries ∧ ∃ after, task.receiveAll deliveries = .ok after) ∨
      (¬ task.AgreesWith deliveries ∧
        task.receiveAll deliveries = fault (.conflictingFanOut task.name)) := by
  induction deliveries generalizing task with
  | nil =>
    left
    refine ⟨?_, task, rfl⟩
    intro first hfirst second hsecond
    rw [List.filterMap_nil, List.append_nil, Option.mem_toList] at hfirst hsecond
    exact Option.some.inj (hfirst.symm.trans hsecond)
  | cons delivery deliveries ih =>
    obtain ⟨passing, origin, target⟩ := delivery
    have hfirst : task.receiveAll (⟨passing, origin, target⟩ :: deliveries) =
        (task.receive ⟨passing, origin, target⟩ >>= fun next => next.receiveAll deliveries) :=
      List.foldlM_cons
    rw [hfirst]
    cases passing with
    | whole => exact ih (task.passParameter target (origin.placeholder .parameter))
    | artifact => exact ih (task.passArtifact target (origin.placeholder .artifact))
    | each =>
      rcases task.fanOut_cases target (origin.placeholder .parameter) with
        ⟨hsame, hfanOut⟩ | ⟨⟨held, hheld, hother⟩, hfanOut⟩
      -- From here on the task remembers the list.
      · let fanned : Task := { task.passParameter target Placeholder.item with
          withParam := some (origin.placeholder .parameter) }
        have hagrees : task.AgreesWith (⟨.each, origin, target⟩ :: deliveries) ↔
            fanned.AgreesWith deliveries := agreesWith_cons_each hsame rfl
        rw [receive, hfanOut, hagrees]
        exact ih fanned
      -- The one that it remembers is another one.
      · right
        refine ⟨fun hagrees => hother ?_, ?_⟩
        · refine hagrees held ?_ (origin.placeholder .parameter) ?_
          · exact List.mem_append_left _ (Option.mem_toList.2 hheld)
          · exact List.mem_append_right _ List.mem_cons_self
        · rw [receive, hfanOut]
          rfl

/-- What a task has been given, it has received. -/
theorem Receives.receiveAll {deliveries : List Delivery} {task after : Task}
    (h : task.receiveAll deliveries = .ok after) : Receives task deliveries after := by
  have hstep : ∀ state delivery next, receive state delivery = .ok next →
      Receives state (some delivery).toList next := by
    rintro state ⟨passing, origin, target⟩ next hnext
    cases passing with
    | whole =>
      cases hnext
      exact whole state origin target
    | each => exact each state origin target hnext
    | artifact =>
      cases hnext
      exact artifact state origin target
  have hreceived : Receives task (deliveries.filterMap some) after := foldlM hstep h
  rwa [List.filterMap_some] at hreceived

end Manifest.Task

/-! ## Lists among deliveries -/

namespace Delivery

theorem map_reference_listSource? (delivery : Delivery) :
    delivery.listSource?.map ListSource.reference = delivery.list? := by
  obtain ⟨passing, origin, target⟩ := delivery
  cases passing <;> rfl

/-- The parameters that hold the current element are those for which a list is delivered. -/
theorem items_eq_targets (deliveries : List Delivery) :
    ((deliveries.filterMap parameter?).filter (·.value = some Placeholder.item)).map
        Parameter.name =
      (deliveries.filterMap listSource?).map ListSource.target := by
  rw [List.filter_filterMap, List.map_filterMap, List.map_filterMap]
  refine List.filterMap_congr fun delivery _ => ?_
  obtain ⟨passing, origin, target⟩ := delivery
  cases passing with
  | whole =>
    have hother : origin.placeholder .parameter ≠ Placeholder.item :=
      origin.placeholder_ne_item .parameter
    simp [parameter?, listSource?, Parameter.withValue, hother]
  | each => rfl
  | artifact => rfl

/-- All others hold what is delivered as a whole. -/
theorem value_of_ne_item {deliveries : List Delivery} {parameter : Parameter}
    (hparameter : parameter ∈ deliveries.filterMap parameter?)
    (hother : parameter.value ≠ some Placeholder.item) :
    ∃ origin : Origin, parameter.value = some (origin.placeholder .parameter) := by
  obtain ⟨⟨passing, origin, target⟩, -, hgiven⟩ := List.mem_filterMap.1 hparameter
  cases passing with
  | whole =>
    obtain rfl := Option.some.inj hgiven
    exact ⟨origin, rfl⟩
  | each =>
    obtain rfl := Option.some.inj hgiven
    exact absurd rfl hother
  | artifact => cases hgiven

end Delivery

theorem InputMapping.bind_listSource? (composite : Component) (mapping : InputMapping) :
    (mapping.delivery? composite).bind Delivery.listSource? = mapping.listSource? composite := by
  rw [delivery?, listSource?]
  cases composite.input? mapping.source with
  | none => rfl
  | some port =>
    obtain ⟨name, type⟩ := port
    cases type <;> rfl

theorem Edge.bind_listSource? (graph : Graph) (edge : Edge) :
    (edge.delivery? graph).bind Delivery.listSource? = edge.listSource? graph := by
  rw [delivery?, listSource?, Option.bind_assoc]
  refine Option.bind_congr fun sibling _ => ?_
  obtain ⟨_, _, _, _, _, _, _, _, implementation⟩ := sibling
  dsimp only
  cases Component.output? _ edge.source.port with
  | none => cases implementation <;> rfl
  | some port =>
    obtain ⟨name, type⟩ := port
    cases type <;> cases implementation <;> rfl

namespace Component

variable {composite child : Component} {settings : Settings} {name : String}
  {mappings : List InputMapping} {edges : List Edge} {work : Lowered Task}

/-- What the connections deliver. -/
def deliveriesBy (composite : Component) (mappings : List InputMapping) (edges : List Edge) :
    List Delivery :=
  mappings.filterMap (InputMapping.delivery? composite) ++
    edges.filterMap (Edge.delivery? composite.wiring)

theorem listSources_eq (composite : Component) (mappings : List InputMapping)
    (edges : List Edge) :
    composite.listSources mappings edges =
      (composite.deliveriesBy mappings edges).filterMap Delivery.listSource? := by
  rw [listSources, deliveriesBy, List.filterMap_append, List.filterMap_filterMap,
    List.filterMap_filterMap]
  simp only [InputMapping.bind_listSource?, Edge.bind_listSource?]

/-- The lists that a task has to agree on are those that reach it. -/
theorem mem_references {items : String} :
    items ∈ ListSource.references (composite.listSources mappings edges) ↔
      items ∈ (composite.deliveriesBy mappings edges).filterMap Delivery.list? := by
  rw [listSources_eq, ListSource.references, List.mem_toFinset, List.map_filterMap]
  simp only [Delivery.map_reference_listSource?]

/-- Where all ends are there, wiring is nothing but delivering, to a task without arguments. -/
theorem Wires.exists_receiveAll (hwires : composite.Wires settings child name mappings edges work)
    (hends : composite.EndsThere child mappings edges) :
    ∃ called : Task, called.name = name ∧ called.arguments = .empty ∧ called.withParam = none ∧
      work = called.receiveAll (composite.deliveriesBy mappings edges) := by
  have hmapped : ∀ called : Task, called.wireInputs composite child mappings =
      called.receiveAll (mappings.filterMap (InputMapping.delivery? composite)) := by
    intro called
    refine Task.foldlM_eq_receiveAll (fun mapping hmapping task => ?_) called
    exact Task.wireInput_eq_receiveAll (hends.inputs mapping hmapping).1
      (hends.inputs mapping hmapping).2
  have hwired : ∀ called : Task, called.wireEdges composite.wiring child edges =
      called.receiveAll (edges.filterMap (Edge.delivery? composite.wiring)) := by
    intro called
    refine Task.foldlM_eq_receiveAll (fun edge hedge task => ?_) called
    exact Task.wireEdge_eq_receiveAll (hends.outputs edge hedge).1 (hends.outputs edge hedge).2
  cases hwires with
  | @node graph node hgraph hnode hchild =>
    have hwiring : composite.wiring = graph := wiring_eq hgraph
    refine ⟨{ Task.calling node.id child.id.text with dependencies := graph.dependencies node.id },
      rfl, rfl, rfl, ?_⟩
    rw [hwiring] at hwired
    rw [Graph.task, Node.component_eq_ok.2 hchild, deliveriesBy, hwiring, Task.receiveAll_append,
      ← hmapped]
    simp only [← hwired]
    rfl
  | @map map hmap hchild =>
    refine ⟨Task.calling settings.mapTaskName child.id.text, rfl, rfl, rfl, ?_⟩
    rw [MapBlock.task, Node.component_eq_ok.2 hchild, deliveriesBy, List.filterMap_nil,
      List.append_nil, ← hmapped]
    rfl
  | @branch conditional hconditional hchild =>
    refine ⟨Task.calling settings.trueTaskName child.id.text, rfl, rfl, rfl, ?_⟩
    rw [deliveriesBy, List.filterMap_nil, List.append_nil, ← hmapped]

/-- A task without a list can be given all that is delivered when that is one list at most. -/
theorem agreesWith_iff_card (composite : Component) (mappings : List InputMapping)
    (edges : List Edge) {called : Task} (hlist : called.withParam = none) :
    called.AgreesWith (composite.deliveriesBy mappings edges) ↔
      (ListSource.references (composite.listSources mappings edges)).card ≤ 1 := by
  rw [Finset.card_le_one]
  simp only [mem_references]
  rw [Task.AgreesWith, hlist, Option.toList_none, List.nil_append]

/-- A task that had nothing and was given what the connections deliver fans out over their lists. -/
theorem fansOut_of_receives {called task : Task} (harguments : called.arguments = .empty)
    (hlist : called.withParam = none)
    (h : called.Receives (composite.deliveriesBy mappings edges) task) :
    task.FansOut (composite.listSources mappings edges) := by
  have hparameters : task.arguments.parameters =
      (composite.deliveriesBy mappings edges).filterMap Delivery.parameter? := by
    rw [h.parameters, harguments]
    rfl
  refine ⟨?_, ?_, ?_⟩
  · ext items
    rw [Option.mem_toFinset, Option.mem_def, h.list, hlist, mem_references]
    exact or_iff_right nofun
  · rw [hparameters, Delivery.items_eq_targets, listSources_eq]
  · intro parameter hparameter hother
    rw [hparameters] at hparameter
    exact Delivery.value_of_ne_item hparameter hother

/-- **One list at most.** Where all ends of the connections into a node are there, its task cannot
be wired when two different lists reach it, and for no other reason. Otherwise it runs over the list
that does reach it, and gives the current element to the inputs that the list reaches. -/
theorem fansOut_over_one_list (hwires : composite.Wires settings child name mappings edges work)
    (hends : composite.EndsThere child mappings edges) :
    (∀ error, work = .error error ↔
      2 ≤ (ListSource.references (composite.listSources mappings edges)).card ∧
        error = .here (.conflictingFanOut name)) ∧
    ((ListSource.references (composite.listSources mappings edges)).card ≤ 1 →
      ∃ task, work = .ok task ∧ task.FansOut (composite.listSources mappings edges)) := by
  obtain ⟨called, rfl, harguments, hlist, rfl⟩ := hwires.exists_receiveAll hends
  have hagrees := agreesWith_iff_card composite mappings edges hlist
  rcases called.receiveAll_cases (composite.deliveriesBy mappings edges) with
    ⟨hone, task, htask⟩ | ⟨hseveral, hfails⟩
  · have hcard := hagrees.1 hone
    rw [htask]
    refine ⟨fun error => ⟨nofun, fun h => by omega⟩, fun _ => ⟨task, rfl, ?_⟩⟩
    exact fansOut_of_receives harguments hlist (.receiveAll htask)
  · have hcard := mt hagrees.2 hseveral
    rw [hfails]
    refine ⟨fun error => ?_, fun h => absurd h hcard⟩
    rw [fault, Except.error.injEq, @eq_comm _ _ error]
    exact (and_iff_right (by omega)).symm

/-! ## Two lists for one task -/

/-- A brick that takes three strings and puts out a list. -/
def listBrick (number : Nat) : Component :=
  let brick : Brick :=
    ⟨.ofImage "alpine", [.port "a", .port "b", .port "c"], [⟨"lines", .file "/tmp/lines"⟩]⟩
  { ofImplementation (.repeating number) "brick" (.brick brick) with
    inputs := [⟨"a", .parameter⟩, ⟨"b", .parameter⟩, ⟨"c", .parameter⟩]
    outputs := [⟨"lines", .parameterArray⟩] }

/-- The node that the lists reach. -/
def listNode : Node := ⟨"second", .inline (listBrick 2)⟩

/-- One brick after another. A list and a word reach the second one, and whatever else is connected
to it. -/
def listGraph (edges : List Edge) (mappings : List InputMapping) : Component :=
  let graph : Graph :=
    ⟨[⟨"first", .inline (listBrick 1)⟩, listNode], edges,
      [⟨"items", ⟨"second", "a"⟩⟩, ⟨"word", ⟨"second", "b"⟩⟩] ++ mappings, []⟩
  { ofImplementation (.repeating 3) "graph" (.graph graph) with
    inputs := [⟨"items", .parameterArray⟩, ⟨"word", .parameter⟩] }

/-- Where the list comes from the same input once more. -/
def sameList : Component := listGraph [] [⟨"items", ⟨"second", "c"⟩⟩]

/-- Where another list comes from the first brick. -/
def otherList : Component := listGraph [⟨⟨"first", "lines"⟩, ⟨"second", "c"⟩⟩] []

theorem listGraph_wires (edges : List Edge) (mappings : List InputMapping) :
    (listGraph edges mappings).Wires .default (listBrick 2) "second"
      ((listGraph edges mappings).wiring.inputMappings.filter (·.target.node = "second"))
      ((listGraph edges mappings).wiring.incoming "second")
      ((listGraph edges mappings).wiring.task (listGraph edges mappings) listNode) :=
  @Wires.node (listGraph edges mappings) _ _ (listGraph edges mappings).wiring listNode rfl
    (.tail _ (.head _)) rfl

/-- A second connection from the same list is one more input for its elements, and an edge that
brings another list is refused. -/
theorem listGraph_fansOut :
    (∃ task, sameList.wiring.task sameList listNode = .ok task ∧
      task.withParam.toFinset = {Placeholder.inputParameter "items"} ∧
      (task.arguments.parameters.filter (·.value = some Placeholder.item)).map Parameter.name =
        ["a", "c"]) ∧
    otherList.wiring.task otherList listNode = fault (.conflictingFanOut "second") := by
  have hsame : sameList.EndsThere (listBrick 2)
      (sameList.wiring.inputMappings.filter (·.target.node = "second"))
      (sameList.wiring.incoming "second") := by
    refine ⟨?_, nofun⟩
    simp only [← Option.isSome_iff_exists]
    decide
  have hother : otherList.EndsThere (listBrick 2)
      (otherList.wiring.inputMappings.filter (·.target.node = "second"))
      (otherList.wiring.incoming "second") := by
    refine ⟨?_, fun edge hedge => ?_⟩
    · simp only [← Option.isSome_iff_exists]
      decide
    · obtain rfl := List.mem_singleton.1
        (show edge ∈ [⟨⟨"first", "lines"⟩, ⟨"second", "c"⟩⟩] from hedge)
      exact ⟨⟨listBrick 1, ⟨"lines", .parameterArray⟩, rfl, rfl, nofun⟩, ⟨"c", .parameter⟩, rfl⟩
  constructor
  · obtain ⟨task, htask, hfans⟩ := (fansOut_over_one_list (listGraph_wires _ _) hsame).2 (by decide)
    exact ⟨task, htask, hfans.list, hfans.elements⟩
  · exact ((fansOut_over_one_list (listGraph_wires _ _) hother).1 _).2 ⟨by decide, rfl⟩

end Component

end Pipeline
