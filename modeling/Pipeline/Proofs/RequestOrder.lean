/-
The order of requests: what dereferencing asks, and in which order.

A reference that is met on the way through a tree has a place, which is a chain of
nodes through inline components and through answers, and it stands in the answers to
the requests around it. A *tour* goes through references in pre-order: the first of
those that are pending is met, and those in the answer to its request come next, before
all others. Nothing is said in this about dereferencing, which knows of no list of
pending references and follows the tree by recursion.

The two are brought together by one statement about any work that asks
(`Asked.Tours`): its requests are those of a tour from the references that it starts
with, and the tour ends where the work does. The statement goes through chains and
lists of steps, as the references of a list of nodes are those of one node after
another, and it goes inside a node, where places become longer. That leaves one request
(`tours_resolve`): it is met, and the references in its answer follow.
-/
import Pipeline.Proofs.Dereferencing

set_option autoImplicit false

namespace Pipeline

/-! ## References -/

/-- A reference that is met on the way through a tree. -/
structure ReferenceSite where
  /-- The identifiers of the nodes down to the one that holds the reference. -/
  place : List String
  request : Request
  /-- The requests in whose answers the reference stands, the innermost first. -/
  around : List Request

namespace ReferenceSite

/-- The reference as it is met further in, at a place and amid requests. -/
def under (place : List String) (around : List Request) (ref : ReferenceSite) : ReferenceSite :=
  ⟨place ++ ref.place, ref.request, ref.around ++ around⟩

/-- A reference in the answer to another one. -/
def below (outer : ReferenceSite) : ReferenceSite → ReferenceSite :=
  under outer.place (outer.request :: outer.around)

/-- The reference does not repeat a request in whose answer it stands. -/
def IsFresh (ref : ReferenceSite) : Prop := ref.request ∉ ref.around

@[simp] theorem request_under (place : List String) (around : List Request) (ref : ReferenceSite) :
    (ref.under place around).request = ref.request := rfl

theorem under_nil (ref : ReferenceSite) : ref.under [] [] = ref := by
  rw [under, List.append_nil]
  rfl

theorem map_under_nil (refs : List ReferenceSite) : refs.map (under [] []) = refs := by
  rw [List.map_congr_left fun ref _ => ref.under_nil, List.map_id']

theorem under_under (outer inner : List String) (outside within : List Request)
    (ref : ReferenceSite) :
    (ref.under inner within).under outer outside =
      ref.under (outer ++ inner) (within ++ outside) := by
  simp only [under, List.append_assoc]

theorem map_under_under (outer inner : List String) (outside within : List Request)
    (refs : List ReferenceSite) :
    (refs.map (under inner within)).map (under outer outside) =
      refs.map (under (outer ++ inner) (within ++ outside)) := by
  rw [List.map_map]
  exact List.map_congr_left fun ref _ => ref.under_under outer inner outside within

theorem isFresh_under_nil {place : List String} {ref : ReferenceSite} :
    (ref.under place []).IsFresh ↔ ref.IsFresh := by
  rw [IsFresh, IsFresh, under, List.append_nil]

end ReferenceSite

mutual

/-- The references in a tree, in pre-order. -/
def Component.references : Component → List ReferenceSite
  | ⟨_, _, _, _, _, _, _, _, .brick _⟩ | ⟨_, _, _, _, _, _, _, _, .any⟩ => []
  | ⟨_, _, _, _, _, _, _, _, .graph ⟨nodes, _, _, _⟩⟩ => Node.allReferences nodes
  | ⟨_, _, _, _, _, _, _, _, .map ⟨node, _, _⟩⟩ => node.references
  | ⟨_, _, _, _, _, _, _, _, .conditional ⟨nodeTrue, none, _, _, _⟩⟩ => nodeTrue.references
  | ⟨_, _, _, _, _, _, _, _, .conditional ⟨nodeTrue, some nodeFalse, _, _, _⟩⟩ =>
    nodeTrue.references ++ nodeFalse.references
termination_by structural component => component

/-- The reference at a node, or those in the component that is written out there. -/
def Node.references : Node → List ReferenceSite
  | ⟨id, .inline component⟩ => component.references.map (ReferenceSite.under [id] [])
  | ⟨id, .latest stored⟩ => [⟨[id], .latest stored, []⟩]
  | ⟨id, .pinned stored version⟩ => [⟨[id], .pinned stored version, []⟩]
termination_by structural node => node

def Node.allReferences : List Node → List ReferenceSite
  | [] => []
  | node :: nodes => node.references ++ Node.allReferences nodes
termination_by structural nodes => nodes

end

theorem Node.allReferences_eq (nodes : List Node) :
    Node.allReferences nodes = nodes.flatMap Node.references := by
  induction nodes with
  | nil => rfl
  | cons node nodes ih => rw [Node.allReferences, ih, List.flatMap_cons]

/-- The references of a component are those of its nodes, in order. -/
theorem Component.references_eq (component : Component) :
    component.references = component.children.flatMap Node.references := by
  obtain ⟨id, name, description, modifier, timestamp, version, inputs, outputs, implementation⟩ :=
    component
  cases implementation with
  | brick block => rfl
  | any => rfl
  | graph block =>
    obtain ⟨nodes, edges, inputMappings, outputMappings⟩ := block
    exact Node.allReferences_eq nodes
  | map block =>
    obtain ⟨node, inputMappings, outputMappings⟩ := block
    exact (List.append_nil _).symm
  | conditional block =>
    obtain ⟨nodeTrue, nodeFalse, condition, inputMappings, outputMappings⟩ := block
    cases nodeFalse with
    | none => exact (List.append_nil _).symm
    | some nodeFalse => exact congrArg _ (List.append_nil _).symm

theorem Node.references_of_component {node : Node} {component : Component}
    (h : node.component? = some component) :
    node.references = component.references.map (ReferenceSite.under [node.id] []) := by
  obtain ⟨id, target⟩ := node
  cases target with
  | inline _ =>
    obtain rfl := Option.some.inj h
    rfl
  | latest _ => cases h
  | pinned _ _ => cases h

theorem Node.references_of_request {node : Node} {request : Request}
    (h : node.target.request? = some request) :
    node.references = [⟨[node.id], request, []⟩] := by
  obtain ⟨id, target⟩ := node
  cases target with
  | inline _ => cases h
  | latest _ =>
    obtain rfl := Option.some.inj h
    rfl
  | pinned _ _ =>
    obtain rfl := Option.some.inj h
    rfl

/-! ## Tours -/

/-- With the first references pending, those of the second list are met one after another, and those
of the third are pending then. What is met has an answer, and the references in the answer come
before all that were pending already. -/
inductive Tour (answer : Request → Option Component) :
    List ReferenceSite → List ReferenceSite → List ReferenceSite → Prop where
  | stop {pending : List ReferenceSite} : Tour answer pending [] pending
  | pass {ref : ReferenceSite} {stored : Component} {pending met rest : List ReferenceSite}
      (hanswer : answer ref.request = some stored)
      (hrest : Tour answer (stored.references.map ref.below ++ pending) met rest) :
      Tour answer (ref :: pending) (ref :: met) rest

namespace Tour

variable {answer : Request → Option Component} {pending met rest : List ReferenceSite}

theorem eq_of_nil (h : Tour answer pending [] rest) : rest = pending := by
  cases h
  rfl

/-- What is pending behind all else does not come into it. -/
theorem append (h : Tour answer pending met rest) (more : List ReferenceSite) :
    Tour answer (pending ++ more) met (rest ++ more) := by
  induction h with
  | stop => exact .stop
  | pass hanswer _ ih =>
    rw [List.append_assoc] at ih
    exact .pass hanswer ih

theorem trans {further last : List ReferenceSite} (h : Tour answer pending met rest)
    (hrest : Tour answer rest further last) : Tour answer pending (met ++ further) last := by
  induction h with
  | stop => exact hrest
  | pass hanswer _ ih => exact .pass hanswer (ih hrest)

/-- A tour that is seen from further out has longer places. -/
theorem inside (h : Tour answer pending met rest) (place : List String) :
    Tour answer (pending.map (ReferenceSite.under place []))
      (met.map (ReferenceSite.under place [])) (rest.map (ReferenceSite.under place [])) := by
  induction h with
  | stop => exact .stop
  | @pass ref stored pending met rest hanswer _ ih =>
    refine .pass hanswer ?_
    -- The references in the answer are as deep in the one as in the other.
    have hbelow : (ref.under place []).below = ReferenceSite.under place [] ∘ ref.below := by
      funext inner
      simp [ReferenceSite.below, ReferenceSite.under]
    rw [hbelow, ← List.map_map, ← List.map_append]
    exact ih

/-- Whatever is met has an answer. -/
theorem answered (h : Tour answer pending met rest) {ref : ReferenceSite} (hmet : ref ∈ met) :
    ∃ stored, answer ref.request = some stored := by
  induction h with
  | stop => cases hmet
  | pass hanswer _ ih =>
    rcases List.mem_cons.1 hmet with rfl | hmet
    · exact ⟨_, hanswer⟩
    · exact ih hmet

end Tour

/-! ## Work that tours -/

/-- The reference is not to be passed: it repeats a request that is being resolved around it, and
nothing is sent, or its request is sent and has no answer. -/
inductive ReferenceSite.Fails {ε : Type} (lookup : Lookup ε) (ref : ReferenceSite) :
    List Request → ResolutionFault ε → Prop where
  | circle {node : String} (hcircle : ¬ ref.IsFresh) :
      Fails lookup ref [] (.cycle node ref.request)
  | unanswered {node : String} {cause : ε} (hfresh : ref.IsFresh)
      (hcause : lookup ref.request = .error cause) :
      Fails lookup ref [ref.request] (.lookup node ref.request cause)

theorem ReferenceSite.Fails.under {ε : Type} {lookup : Lookup ε} {ref : ReferenceSite}
    {sent : List Request} {fault : ResolutionFault ε} (h : ref.Fails lookup sent fault)
    (place : List String) : (ref.under place []).Fails lookup sent fault := by
  cases h with
  | circle hcircle => exact .circle (hcircle ∘ isFresh_under_nil.1)
  | unanswered hfresh hcause => exact .unanswered (isFresh_under_nil.2 hfresh) hcause

/-- The request of a reference that is not passed is the last one, or is not among those that are
sent. -/
theorem ReferenceSite.Fails.requests {ε : Type} {lookup : Lookup ε} {met : List ReferenceSite}
    {last : ReferenceSite} {sent requests : List Request} {fault : ResolutionFault ε}
    (h : last.Fails lookup sent fault) (hrequests : requests = met.map (·.request) ++ sent) :
    ¬ last.IsFresh ∧ requests = met.map (·.request) ∨
      last.IsFresh ∧ lookup.answer? last.request = none ∧
        requests = (met ++ [last]).map (·.request) := by
  cases h with
  | circle hcircle => exact .inl ⟨hcircle, hrequests.trans (List.append_nil _)⟩
  | unanswered hfresh hcause =>
    refine .inr ⟨hfresh, ?_, ?_⟩
    · rw [Lookup.answer?, hcause]
      rfl
    · rw [List.map_append]
      exact hrequests

/-- The requests of some work are those of a tour from the references that it starts with, on which
no reference repeats a request around it. The work succeeds at the end of the tour, and fails at the
first reference that is not to be passed. -/
inductive Asked.Tours {ε α : Type} (lookup : Lookup ε) (start : List ReferenceSite)
    (work : Asked (ResolutionError ε) α) : Prop where
  | through {met : List ReferenceSite} {value : α} (htour : Tour lookup.answer? start met [])
      (hfresh : ∀ ref ∈ met, ref.IsFresh) (hrequests : work.requests = met.map (·.request))
      (houtcome : work.outcome = .ok value)
  | stopped {met rest : List ReferenceSite} {last : ReferenceSite} {sent : List Request}
      {error : ResolutionError ε} (htour : Tour lookup.answer? start met (last :: rest))
      (hfresh : ∀ ref ∈ met, ref.IsFresh) (hfails : last.Fails lookup sent error.cause)
      (hplace : error.path ++ [error.cause.node] = last.place)
      (hrequests : work.requests = met.map (·.request) ++ sent)
      (houtcome : work.outcome = .error error)

namespace Asked.Tours

variable {ε α β : Type} {lookup : Lookup ε} {start further : List ReferenceSite}
  {work : Asked (ResolutionError ε) α}

theorem pure (value : α) :
    (Pure.pure value : Asked (ResolutionError ε) α).Tours lookup [] :=
  .through .stop (List.forall_mem_nil _) rfl rfl

/-- A chain meets what its steps meet, in order. -/
theorem bind {next : α → Asked (ResolutionError ε) β} (hwork : work.Tours lookup start)
    (hnext : ∀ value, (next value).Tours lookup further) :
    (work >>= next).Tours lookup (start ++ further) := by
  obtain ⟨requests, outcome⟩ := work
  cases hwork with
  | @through met value htour hfresh hrequests houtcome =>
    obtain rfl : requests = _ := hrequests
    obtain rfl : outcome = _ := houtcome
    rw [ok_bind]
    have hstart := htour.append further
    cases hnext value with
    | through htour' hfresh' hrequests' houtcome' =>
      refine .through (hstart.trans htour') ?_ ?_ houtcome'
      · exact List.forall_mem_append.2 ⟨hfresh, hfresh'⟩
      · rw [List.map_append, hrequests']
    | stopped htour' hfresh' hfails hplace hrequests' houtcome' =>
      refine .stopped (hstart.trans htour') ?_ hfails hplace ?_ houtcome'
      · exact List.forall_mem_append.2 ⟨hfresh, hfresh'⟩
      · rw [List.map_append, List.append_assoc, hrequests']
  | stopped htour hfresh hfails hplace hrequests houtcome =>
    obtain rfl : outcome = _ := houtcome
    exact .stopped (htour.append further) hfresh hfails hplace hrequests rfl

theorem map (f : α → β) (h : work.Tours lookup start) :
    (do let value ← work; return f value : Asked (ResolutionError ε) β).Tours lookup start := by
  have hwhole := h.bind fun value => pure (f value)
  rwa [List.append_nil] at hwhole

/-- A list of steps meets what each of them meets, one after another. -/
theorem mapM {γ : Type} {step : γ → Asked (ResolutionError ε) α} {starts : γ → List ReferenceSite}
    {values : List γ} (h : ∀ value ∈ values, (step value).Tours lookup (starts value)) :
    (values.mapM step).Tours lookup (values.flatMap starts) := by
  induction values with
  | nil => exact pure []
  | cons value values ih =>
    obtain ⟨hvalue, hvalues⟩ := List.forall_mem_cons.1 h
    rw [List.mapM_cons, List.flatMap_cons]
    exact hvalue.bind fun first => (ih hvalues).map (first :: ·)

/-- Inside a node the places of what is met begin with the node. -/
theorem inside (h : work.Tours lookup start) (id : String) :
    (work.inside id).Tours lookup (start.map (ReferenceSite.under [id] [])) := by
  have hfresh : ∀ met : List ReferenceSite, (∀ ref ∈ met, ref.IsFresh) →
      ∀ ref ∈ met.map (ReferenceSite.under [id] []), ref.IsFresh := by
    intro met hmet
    simpa only [List.forall_mem_map, ReferenceSite.isFresh_under_nil] using hmet
  have hrequests : ∀ met : List ReferenceSite,
      (met.map (ReferenceSite.under [id] [])).map (·.request) = met.map (·.request) := by
    intro met
    rw [List.map_map]
    rfl
  obtain ⟨requests, outcome⟩ := work
  cases h with
  | @through met value htour hmet hwork houtcome =>
    obtain rfl : outcome = _ := houtcome
    exact .through (htour.inside [id]) (hfresh met hmet) (hwork.trans (hrequests met).symm) rfl
  | @stopped met rest last sent error htour hmet hfails hplace hwork houtcome =>
    obtain rfl : outcome = _ := houtcome
    -- The error is placed inside the node, and its cause stays the same.
    have hcause : (last.under [id] []).Fails lookup sent (error.within id).cause :=
      hfails.under [id]
    refine .stopped (htour.inside [id]) (hfresh met hmet) hcause ?_ ?_ rfl
    · exact congrArg (id :: ·) hplace
    · rw [hrequests]
      exact hwork

/-- A request that is answered is met before what stands in its answer. -/
theorem after {ref : ReferenceSite} {stored : Component}
    (hanswer : lookup.answer? ref.request = some stored) (hfresh : ref.IsFresh)
    (h : work.Tours lookup (stored.references.map ref.below)) :
    (after ref.request work).Tours lookup [ref] := by
  rw [← List.append_nil (stored.references.map _)] at h
  cases h with
  | through htour hmet hrequests houtcome =>
    refine .through (.pass hanswer htour) ?_ ?_ houtcome
    · exact List.forall_mem_cons.2 ⟨hfresh, hmet⟩
    · exact congrArg (ref.request :: ·) hrequests
  | stopped htour hmet hfails hplace hrequests houtcome =>
    refine .stopped (.pass hanswer htour) ?_ hfails hplace ?_ houtcome
    · exact List.forall_mem_cons.2 ⟨hfresh, hmet⟩
    · exact congrArg (ref.request :: ·) hrequests

end Asked.Tours

/-! ## Dereferencing tours -/

section Dereference

variable {ε : Type}

theorem Node.expand_eq (resolver : Resolver ε) (node : Node) :
    node.expand resolver = do
      let component ← node.target.expand resolver node.id
      return ⟨node.id, .inline component⟩ := by
  obtain ⟨id, target⟩ := node
  rfl

/-- Where the resolver tours from every single reference, a node is toured from what it holds. -/
theorem Node.tours_expand {lookup : Lookup ε} {resolver : Resolver ε} {around : List Request}
    {node : Node}
    (hresolver : ∀ id request, (resolver id request).Tours lookup [⟨[id], request, around⟩])
    (hcomponent : ∀ component, node.component? = some component →
      (component.expand resolver).Tours lookup (component.references.map (.under [] around))) :
    (node.target.expand resolver node.id).Tours lookup
      (node.references.map (ReferenceSite.under [] around)) := by
  rcases node.target.component_or_request with ⟨component, hinline⟩ | ⟨request, hrequest⟩
  · rw [NodeRef.expand_of_component resolver _ hinline, Node.references_of_component hinline]
    have hwork := (hcomponent component hinline).inside node.id
    rw [ReferenceSite.map_under_under, List.append_nil, List.append_nil] at hwork
    rwa [ReferenceSite.map_under_under]
  · rw [NodeRef.expand_of_request resolver _ hrequest, Node.references_of_request hrequest]
    exact hresolver node.id request

/-- Where the resolver tours from every single reference, a tree is toured from those in it. -/
theorem Component.tours_expand {lookup : Lookup ε} {resolver : Resolver ε}
    {around : List Request}
    (hresolver : ∀ id request, (resolver id request).Tours lookup [⟨[id], request, around⟩])
    (component : Component) :
    (component.expand resolver).Tours lookup (component.references.map (.under [] around)) := by
  induction component using Component.induction with
  | step component ih =>
    rw [expand_eq, references_eq, List.map_flatMap]
    refine (Asked.Tours.mapM fun node hnode => ?_).map _
    rw [Node.expand_eq]
    refine (Node.tours_expand hresolver fun child hchild => ?_).map _
    exact ih child ⟨node, hnode, hchild⟩

variable (lookup : Lookup ε)

/-- A request is resolved on a tour from its reference, amid the requests of the trail. -/
theorem tours_resolve (trail : Trail) (node : String) (request : Request) :
    (resolve lookup trail node request).Tours lookup [⟨[node], request, trail.requests⟩] := by
  rw [resolve]
  let ref : ReferenceSite := ⟨[node], request, trail.requests⟩
  by_cases hmem : request ∈ trail.requests
  · rw [dif_pos hmem]
    have hcircle : ¬ ref.IsFresh := not_not_intro hmem
    exact .stopped .stop (List.forall_mem_nil _) (.circle hcircle) rfl rfl rfl
  · rw [dif_neg hmem]
    have hfresh : ref.IsFresh := hmem
    cases hanswer : lookup request with
    | error cause =>
      exact .stopped .stop (List.forall_mem_nil _) (.unanswered hfresh hanswer) rfl rfl rfl
    | ok stored =>
      have hstored := Component.tours_expand (tours_resolve (trail.push request hmem)) stored
      have hwork := hstored.inside node
      rw [ReferenceSite.map_under_under, List.append_nil, List.append_nil] at hwork
      exact Asked.Tours.after (Lookup.answer?_eq_some.2 hanswer) hfresh hwork
termination_by trail.room
decreasing_by exact trail.room_push_lt _ _

theorem Component.tours_dereference (component : Component) :
    (component.dereference lookup).Tours lookup component.references := by
  have h := tours_expand (tours_resolve lookup .empty) component
  rwa [Trail.empty, ReferenceSite.map_under_nil] at h

theorem NodeRef.tours_dereference (id : String) (ref : NodeRef) :
    (ref.dereference lookup id).Tours lookup (Node.references ⟨id, ref⟩) := by
  let node : Node := ⟨id, ref⟩
  have h : (node.target.expand (resolve lookup .empty) node.id).Tours lookup
      (node.references.map (ReferenceSite.under [] Trail.empty.requests)) :=
    Node.tours_expand (tours_resolve lookup .empty) fun component _ =>
      Component.tours_expand (tours_resolve lookup .empty) component
  rwa [Trail.empty, ReferenceSite.map_under_nil] at h

theorem Node.tours_dereference (node : Node) :
    (node.dereference lookup).Tours lookup node.references := by
  obtain ⟨id, target⟩ := node
  have h := NodeRef.tours_dereference lookup id target
  exact h.map fun component => Node.mk id (.inline component)

/-- The references of a job are those of its root, as the node that messages take it for. -/
theorem Job.tours_dereference (job : Job) :
    (job.dereference lookup).Tours lookup (Node.references ⟨rootNode, job.workflow.component⟩) :=
  (NodeRef.tours_dereference lookup rootNode job.workflow.component).map _

end Dereference

/-! ## The order of requests -/

/-- The reference stands in the answer to another one. -/
def ReferenceSite.LeadsTo (answer : Request → Option Component) (outer inner : ReferenceSite) :
    Prop :=
  ∃ stored, answer outer.request = some stored ∧ inner ∈ stored.references.map outer.below

/-- A tour that comes to its end has met every reference that it started with and every one that
those lead to. -/
theorem Tour.mem_met_iff {answer : Request → Option Component} {pending met : List ReferenceSite}
    (h : Tour answer pending met []) {ref : ReferenceSite} :
    ref ∈ met ↔
      ∃ first ∈ pending, Relation.ReflTransGen (ReferenceSite.LeadsTo answer) first ref := by
  generalize hrest : ([] : List ReferenceSite) = rest at h
  induction h with
  | stop => simp [← hrest]
  | @pass first stored pending met rest hanswer _ ih =>
    have hleads : ∀ inner,
        first.LeadsTo answer inner ↔ inner ∈ stored.references.map first.below := by
      intro inner
      rw [ReferenceSite.LeadsTo, hanswer]
      simp
    rw [List.mem_cons, ih hrest, List.exists_mem_cons_iff, Relation.ReflTransGen.cases_head_iff]
    simp only [hleads, List.mem_append, or_and_right, exists_or, or_assoc, eq_comm]

/-- **Requests are made once for each reference and in order.** When a component is dereferenced,
the requests are those of the references on a tour through all of its references and all that stand
in the answers. When that fails, they are those of a tour that stops at some reference: one that
repeats a request around it and is not sent again, or one without an answer, whose request is the
last. Whatever is sent repeats no request around it. -/
theorem Component.requests_in_order {ε : Type} (lookup : Lookup ε) (component : Component) :
    (∀ result, (component.dereference lookup).outcome = .ok result →
      ∃ met, Tour lookup.answer? component.references met [] ∧
        (component.dereference lookup).requests = met.map (·.request) ∧
        (∀ ref ∈ met, ref.IsFresh) ∧
        ∀ ref, ref ∈ met ↔ ∃ first ∈ component.references,
          Relation.ReflTransGen (ReferenceSite.LeadsTo lookup.answer?) first ref) ∧
    ∀ error, (component.dereference lookup).outcome = .error error →
      ∃ met last rest, Tour lookup.answer? component.references met (last :: rest) ∧
        (∀ ref ∈ met, ref.IsFresh) ∧
        (¬ last.IsFresh ∧ (component.dereference lookup).requests = met.map (·.request) ∨
          last.IsFresh ∧ lookup.answer? last.request = none ∧
            (component.dereference lookup).requests = (met ++ [last]).map (·.request)) := by
  cases component.tours_dereference lookup with
  | @through met value htour hfresh hrequests houtcome =>
    rw [houtcome]
    refine ⟨fun _ _ => ⟨met, htour, hrequests, hfresh, fun ref => htour.mem_met_iff⟩, ?_⟩
    exact fun error herror => nomatch herror
  | @stopped met rest last sent error htour hfresh hfails hplace hrequests houtcome =>
    rw [houtcome]
    refine ⟨fun _ hresult => (nomatch hresult), fun _ _ => ⟨met, last, rest, htour, hfresh, ?_⟩⟩
    exact hfails.requests hrequests

end Pipeline
