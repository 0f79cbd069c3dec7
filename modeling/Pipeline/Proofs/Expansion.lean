/-
Expanding a tree: what becomes of a component when its references are resolved.

Work that asks has an outcome and a list of requests. Outcomes compose as if
nothing were asked (`Asked.outcome_bind`), so whatever is known about work that may
fail applies to them as it stands.

A graph, a map and a conditional are expanded alike: their nodes are, in order, and
take the places of the old ones (`Component.expand_eq`). All else that a component
has is left as it was, which is how `Component.withChildren` is defined. A node is
expanded by what it holds: a component that is written out, or a reference, for
which the resolver answers (`NodeRef.expand_of_component`, `NodeRef.expand_of_request`).
-/
import Pipeline.Proofs.Composite
import Pipeline.Registry.Resolution

set_option autoImplicit false

namespace Pipeline

/-! ## Work that asks -/

namespace Asked

variable {ε α β γ : Type}

theorem ok_bind (requests : List Request) (value : α) (next : α → Asked ε β) :
    (⟨requests, .ok value⟩ : Asked ε α) >>= next =
      ⟨requests ++ (next value).requests, (next value).outcome⟩ := rfl

/-- How steps are grouped makes no difference, since their requests are appended. -/
theorem bind_bind (work : Asked ε α) (next : α → Asked ε β) (last : β → Asked ε γ) :
    work >>= next >>= last = work >>= fun value => next value >>= last := by
  obtain ⟨requests, outcome⟩ := work
  cases outcome with
  | error error => rfl
  | ok value =>
    rw [ok_bind, ok_bind]
    cases next value with
    | mk more outcome =>
      cases outcome with
      | error error => rfl
      | ok value => rw [ok_bind, ok_bind, List.append_assoc]

instance : LawfulMonad (Asked ε) := LawfulMonad.mk' (Asked ε)
  (by
    rintro α ⟨requests, outcome⟩
    cases outcome with
    | error error => rfl
    | ok value => exact congrArg (Asked.mk · (.ok value)) (List.append_nil requests))
  (fun _ _ => rfl)
  bind_bind

/-! ### Outcomes -/

@[simp] theorem outcome_pure (value : α) : (Pure.pure value : Asked ε α).outcome = .ok value := rfl

/-- Outcomes compose as those of work that does not ask. -/
theorem outcome_bind (work : Asked ε α) (next : α → Asked ε β) :
    (work >>= next).outcome = work.outcome >>= fun value => (next value).outcome := by
  obtain ⟨requests, outcome⟩ := work
  cases outcome <;> rfl

theorem outcome_mapM (step : α → Asked ε β) (values : List α) :
    (values.mapM step).outcome = values.mapM fun value => (step value).outcome := by
  induction values with
  | nil => rfl
  | cons value values ih =>
    rw [List.mapM_cons, List.mapM_cons, outcome_bind]
    refine bind_congr fun first => ?_
    rw [outcome_bind, ih]
    rfl

@[simp] theorem outcome_after (request : Request) (work : Asked ε α) :
    (after request work).outcome = work.outcome := rfl

@[simp] theorem outcome_fail (error : ε) : (fail error : Asked ε α).outcome = .error error := rfl

theorem outcome_inside_eq_ok {ι : Type} {place : ι} {work : Asked (Located ι ε) α} {value : α} :
    (inside place work).outcome = .ok value ↔ work.outcome = .ok value :=
  inside_eq_ok

end Asked

/-! ## Other nodes in the same places -/

/-- The implementation with other nodes in the places of its own, as many as it has. Its connections
and its condition stay. -/
def Implementation.withChildren (implementation : Implementation) (nodes : List Node) :
    Implementation :=
  match implementation, nodes with
  | .graph block, nodes => .graph { block with nodes }
  | .map block, [node] => .map { block with node }
  | .conditional block, nodeTrue :: rest =>
    .conditional { block with nodeTrue, nodeFalse := rest.head? }
  | implementation, _ => implementation

namespace Component

/-- The component with other nodes in the places of its own, as many as it has. Everything else
stays. -/
def withChildren (component : Component) (nodes : List Node) : Component :=
  { component with implementation := component.implementation.withChildren nodes }

/-- The nodes that are put in are the nodes that are there. -/
theorem children_withChildren {component : Component} {nodes : List Node}
    (h : component.children.length = nodes.length) :
    (component.withChildren nodes).children = nodes := by
  unfold children at h
  unfold withChildren children
  cases himplementation : component.implementation with
  | brick block =>
    rw [himplementation] at h
    exact (List.length_eq_zero_iff.1 h.symm).symm
  | any =>
    rw [himplementation] at h
    exact (List.length_eq_zero_iff.1 h.symm).symm
  | graph block => rfl
  | map block =>
    rw [himplementation] at h
    obtain ⟨node, rfl⟩ := List.length_eq_one_iff.1 h.symm
    rfl
  | conditional block =>
    obtain ⟨nodeTrue, nodeFalse, condition, inputMappings, outputMappings⟩ := block
    rw [himplementation] at h
    -- There are as many nodes as branches, which is one or two.
    cases nodeFalse with
    | none =>
      obtain ⟨node, rfl⟩ := List.length_eq_one_iff.1 h.symm
      rfl
    | some nodeFalse =>
      obtain ⟨first, second, rfl⟩ := List.length_eq_two.1 h.symm
      rfl

/-- The same nodes make no difference. -/
theorem withChildren_children (component : Component) :
    component.withChildren component.children = component := by
  obtain ⟨id, name, description, modifier, timestamp, version, inputs, outputs, implementation⟩ :=
    component
  cases implementation with
  | brick block => rfl
  | any => rfl
  | graph block =>
    obtain ⟨nodes, edges, inputMappings, outputMappings⟩ := block
    rfl
  | map block =>
    obtain ⟨node, inputMappings, outputMappings⟩ := block
    rfl
  | conditional block =>
    obtain ⟨nodeTrue, nodeFalse, condition, inputMappings, outputMappings⟩ := block
    cases nodeFalse <;> rfl

end Component

/-! ## Nodes -/

section Expand

variable {ε : Type} (resolver : Resolver ε)

/-- A node holds a component, or a reference with a request. -/
theorem NodeRef.component_or_request (ref : NodeRef) :
    (∃ component, ref.component? = some component) ∨ ∃ request, ref.request? = some request := by
  cases ref with
  | inline component => exact .inl ⟨component, rfl⟩
  | latest id => exact .inr ⟨.latest id, rfl⟩
  | pinned id version => exact .inr ⟨.pinned id version, rfl⟩

/-- A node that holds a component holds no reference. -/
theorem NodeRef.request?_of_component {ref : NodeRef} {component : Component}
    (h : ref.component? = some component) : ref.request? = none := by
  cases ref with
  | inline _ => rfl
  | latest _ => cases h
  | pinned _ _ => cases h

theorem NodeRef.expand_of_component {ref : NodeRef} {component : Component} (id : String)
    (h : ref.component? = some component) :
    ref.expand resolver id = Asked.inside id (component.expand resolver) := by
  cases ref with
  | inline _ =>
    obtain rfl := Option.some.inj h
    rfl
  | latest _ => cases h
  | pinned _ _ => cases h

theorem NodeRef.expand_of_request {ref : NodeRef} {request : Request} (id : String)
    (h : ref.request? = some request) : ref.expand resolver id = resolver id request := by
  cases ref with
  | inline _ => cases h
  | latest _ =>
    obtain rfl := Option.some.inj h
    rfl
  | pinned _ _ =>
    obtain rfl := Option.some.inj h
    rfl

/-- A node keeps its identifier and holds from now on what was found for it. -/
theorem Node.expand_eq_ok {node result : Node} :
    (node.expand resolver).outcome = .ok result ↔
      ∃ component, (node.target.expand resolver node.id).outcome = .ok component ∧
        result = ⟨node.id, .inline component⟩ := by
  obtain ⟨id, target⟩ := node
  rw [Node.expand, Asked.outcome_bind, bind_eq_ok]
  refine exists_congr fun component => and_congr_right fun _ => ?_
  rw [Asked.outcome_pure, Except.ok.injEq, eq_comm]

/-! ## Components -/

theorem Node.expandAll_eq_mapM (nodes : List Node) :
    Node.expandAll resolver nodes = nodes.mapM fun node : Node => node.expand resolver := by
  induction nodes with
  | nil => rfl
  | cons node nodes ih => rw [Node.expandAll, ih, List.mapM_cons]

namespace Component

/-- A component is expanded by expanding its nodes, in order. -/
theorem expand_eq (component : Component) :
    component.expand resolver = do
      let nodes ← component.children.mapM fun node : Node => node.expand resolver
      return component.withChildren nodes := by
  obtain ⟨id, name, description, modifier, timestamp, version, inputs, outputs, implementation⟩ :=
    component
  cases implementation with
  | brick block => rfl
  | any => rfl
  | graph block =>
    obtain ⟨nodes, edges, inputMappings, outputMappings⟩ := block
    rw [Component.expand, Node.expandAll_eq_mapM]
    rfl
  | map block =>
    obtain ⟨node, inputMappings, outputMappings⟩ := block
    simp only [Component.expand, children, Implementation.children, List.mapM_cons, List.mapM_nil,
      bind_assoc, pure_bind]
    rfl
  | conditional block =>
    obtain ⟨nodeTrue, nodeFalse, condition, inputMappings, outputMappings⟩ := block
    cases nodeFalse with
    | none =>
      simp only [Component.expand, children, Implementation.children, Conditional.branches,
        Option.toList_none, List.mapM_cons, List.mapM_nil, bind_assoc, pure_bind]
      rfl
    | some nodeFalse =>
      simp only [Component.expand, children, Implementation.children, Conditional.branches,
        Option.toList_some, List.mapM_cons, List.mapM_nil, bind_assoc, pure_bind]
      rfl

/-- A component is expanded when all of its nodes are, and they take the places of the old ones. -/
theorem expand_eq_ok {component result : Component} :
    (component.expand resolver).outcome = .ok result ↔
      ∃ nodes, List.Forall₂ (fun node expanded : Node =>
          (node.expand resolver).outcome = .ok expanded) component.children nodes ∧
        result = component.withChildren nodes := by
  rw [expand_eq, Asked.outcome_bind, bind_eq_ok]
  refine exists_congr fun nodes => ?_
  rw [Asked.outcome_mapM, mapM_eq_ok, Asked.outcome_pure, Except.ok.injEq, eq_comm]

end Component

end Expand

end Pipeline
