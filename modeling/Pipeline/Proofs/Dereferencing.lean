/-
Dereferencing: it finds the unfolding of a tree, exactly when there is one.

What is found is an unfolding, since every reference is replaced by what its request
unfolds to; this goes by the room that the trail leaves, and inside one component by
the tree. That it is found is a matter of the trail. A request that is refused stands
on the trail, and every request on the trail leads to the one at hand: refusing it
means that it leads back to itself (`exists_resolved`). Siblings do not see
one another's trails, so a request that two of them share is no circle.

The two halves meet in one statement about registries. There is an unfolding exactly
when all that is needed is answered and nothing needed leads back to itself.
-/
import Pipeline.Proofs.Unfolding

set_option autoImplicit false

namespace Pipeline

/-! ## Answers -/

/-- What a lookup answers a request with, if it does. -/
def Lookup.answer? {ε : Type} (lookup : Lookup ε) (request : Request) : Option Component :=
  (lookup request).toOption

theorem Lookup.answer?_eq_some {ε : Type} {lookup : Lookup ε} {request : Request}
    {stored : Component} : lookup.answer? request = some stored ↔ lookup request = .ok stored := by
  rw [Lookup.answer?]
  cases lookup request with
  | error cause => simp [Except.toOption]
  | ok found => simp [Except.toOption]

/-- The answers of a registry are the components that it stores. -/
theorem Registry.answer?_lookup (registry : Registry) :
    registry.lookup.answer? = registry.get? := by
  funext request
  rw [Lookup.answer?, Registry.lookup]
  cases registry.get? request <;> rfl

/-! ## Following the tree -/

section Expand

variable {ε : Type} {resolver : Resolver ε} {answer : Request → Option Component}

/-- What holds at a node, holds for the component that is written out there or for the request of
its reference. -/
theorem Node.unfolds_of_expand {node result : Node}
    (hresolver : ∀ node request result, (resolver node request).outcome = .ok result →
      request.UnfoldsTo answer result)
    (hcomponent : ∀ component, node.component? = some component → ∀ result,
      (component.expand resolver).outcome = .ok result → component.Unfolds answer result)
    (h : (node.expand resolver).outcome = .ok result) : node.Unfolds answer result := by
  obtain ⟨child, hchild, rfl⟩ := (Node.expand_eq_ok resolver).1 h
  rcases node.target.component_or_request with ⟨component, hinline⟩ | ⟨request, hrequest⟩
  · rw [NodeRef.expand_of_component resolver _ hinline, Asked.outcome_inside_eq_ok] at hchild
    exact .inline hinline (hcomponent component hinline child hchild)
  · rw [NodeRef.expand_of_request resolver _ hrequest] at hchild
    obtain ⟨stored, hanswer, hunfolds⟩ := hresolver _ _ _ hchild
    exact .reference hrequest hanswer hunfolds

/-- Where the resolver finds what requests unfold to, a tree is expanded to its unfolding. -/
theorem Component.unfolds_of_expand
    (hresolver : ∀ node request result, (resolver node request).outcome = .ok result →
      request.UnfoldsTo answer result)
    {component result : Component} (h : (component.expand resolver).outcome = .ok result) :
    component.Unfolds answer result := by
  induction component using Component.induction generalizing result with
  | step component ih =>
    obtain ⟨nodes, hnodes, rfl⟩ := (expand_eq_ok resolver).1 h
    have hchildren := (List.forall₂_and_left (p := (· ∈ component.children)) _ _).2
      ⟨fun _ hnode => hnode, hnodes⟩
    refine .intro (hchildren.imp ?_)
    rintro node expanded ⟨hnode, hexpanded⟩
    refine Node.unfolds_of_expand hresolver (fun child hchild result => ?_) hexpanded
    exact ih child ⟨node, hnode, hchild⟩

/-- Where the resolver succeeds with every request in a tree, the tree is expanded. -/
theorem Component.exists_expanded {component : Component}
    (hresolver : ∀ request, component.Refers request → ∀ node,
      ∃ result, (resolver node request).outcome = .ok result) :
    ∃ result, (component.expand resolver).outcome = .ok result := by
  induction component using Component.induction with
  | step component ih =>
    have hnodes : ∀ node ∈ component.children,
        ∃ expanded, (node.expand resolver).outcome = .ok expanded := by
      intro node hnode
      suffices hfound : ∃ child, (node.target.expand resolver node.id).outcome = .ok child by
        obtain ⟨child, hchild⟩ := hfound
        exact ⟨_, (Node.expand_eq_ok resolver).2 ⟨child, hchild, rfl⟩⟩
      rcases node.target.component_or_request with ⟨child, hinline⟩ | ⟨request, hrequest⟩
      · have hchild : component.HasChild child := ⟨node, hnode, hinline⟩
        rw [NodeRef.expand_of_component resolver _ hinline]
        simp only [Asked.outcome_inside_eq_ok]
        exact ih child hchild fun request hrefers =>
          hresolver request (refers_iff.2 (.inr ⟨child, hchild, hrefers⟩))
      · rw [NodeRef.expand_of_request resolver _ hrequest]
        exact hresolver request (refers_iff.2 (.inl ⟨node, hnode, hrequest⟩)) node.id
    obtain ⟨nodes, hexpanded⟩ := exists_forall₂ hnodes
    exact ⟨_, (expand_eq_ok resolver).2 ⟨nodes, hexpanded, rfl⟩⟩

end Expand

/-! ## Asking -/

section Resolve

variable {ε : Type} {lookup : Lookup ε}

/-- A request is resolved when it does not stand on the trail, the lookup answers it, and the answer
is expanded with the request on the trail. -/
theorem resolve_eq_ok {trail : Trail} {node : String} {request : Request} {result : Component} :
    (resolve lookup trail node request).outcome = .ok result ↔
      ∃ (hfresh : request ∉ trail.requests) (stored : Component),
        lookup request = .ok stored ∧
          (stored.expand (resolve lookup (trail.push request hfresh))).outcome = .ok result := by
  rw [resolve]
  by_cases hfresh : request ∈ trail.requests
  · rw [dif_pos hfresh, Asked.outcome_fail]
    simp [hfresh]
  · rw [dif_neg hfresh, Asked.outcome_after]
    cases lookup request with
    | error cause => simp
    | ok stored => simp [hfresh, Asked.outcome_inside_eq_ok]

/-- What a request is resolved to is what it unfolds to. -/
theorem unfoldsTo_of_resolve (trail : Trail) {node : String} {request : Request}
    {result : Component} (h : (resolve lookup trail node request).outcome = .ok result) :
    request.UnfoldsTo lookup.answer? result := by
  obtain ⟨hfresh, stored, hstored, hexpand⟩ := resolve_eq_ok.1 h
  refine ⟨stored, Lookup.answer?_eq_some.2 hstored, ?_⟩
  exact Component.unfolds_of_expand
    (fun _ _ _ hresolved => unfoldsTo_of_resolve (trail.push request hfresh) hresolved) hexpand
termination_by trail.room
decreasing_by exact trail.room_push_lt _ _

/-- A request is resolved when all that it leads to has an answer and does not lead back to itself,
provided that every request on the trail leads to it. -/
theorem exists_resolved (trail : Trail) (node : String) {request : Request}
    (hneeds : ∀ next, Relation.ReflTransGen (Request.LeadsTo lookup.answer?) request next →
      (∃ stored, lookup.answer? next = some stored) ∧
        ¬ Relation.TransGen (Request.LeadsTo lookup.answer?) next next)
    (htrail : ∀ earlier ∈ trail.requests,
      Relation.TransGen (Request.LeadsTo lookup.answer?) earlier request) :
    ∃ result, (resolve lookup trail node request).outcome = .ok result := by
  obtain ⟨⟨stored, hanswer⟩, hcircle⟩ := hneeds request .refl
  -- A request that stands on the trail would lead to itself.
  have hfresh : request ∉ trail.requests := fun hmem => hcircle (htrail request hmem)
  suffices hexpanded : ∃ result,
      (stored.expand (resolve lookup (trail.push request hfresh))).outcome = .ok result by
    obtain ⟨result, hresult⟩ := hexpanded
    exact ⟨result, resolve_eq_ok.2 ⟨hfresh, stored, Lookup.answer?_eq_some.1 hanswer, hresult⟩⟩
  refine Component.exists_expanded fun next hrefers inner => ?_
  have hleads : request.LeadsTo lookup.answer? next := ⟨stored, hanswer, hrefers⟩
  refine exists_resolved (trail.push request hfresh) inner
    (fun further hfurther => hneeds further (.head hleads hfurther)) fun earlier hearlier => ?_
  rcases List.mem_cons.1 hearlier with rfl | hearlier
  · exact .single hleads
  · exact .tail (htrail earlier hearlier) hleads
termination_by trail.room
decreasing_by exact trail.room_push_lt _ _

/-! ## Whole components -/

namespace Component

theorem unfolds_of_dereference {component result : Component}
    (h : (component.dereference lookup).outcome = .ok result) :
    component.Unfolds lookup.answer? result :=
  unfolds_of_expand (fun _ _ _ => unfoldsTo_of_resolve .empty) h

/-- A component is dereferenced when all that it needs has an answer and does not lead back to
itself. -/
theorem exists_dereferenced {component : Component}
    (hneeds : ∀ request, component.Needs lookup.answer? request →
      (∃ stored, lookup.answer? request = some stored) ∧
        ¬ Relation.TransGen (Request.LeadsTo lookup.answer?) request request) :
    ∃ result, (component.dereference lookup).outcome = .ok result := by
  refine exists_expanded fun request hrefers node => ?_
  refine exists_resolved .empty node (fun next hnext => hneeds next ⟨request, hrefers, hnext⟩) ?_
  intro earlier hearlier
  exact absurd hearlier List.not_mem_nil

/-- There is something to find exactly when all that is needed has an answer and does not lead back
to itself. -/
theorem exists_dereferenced_iff {component : Component} :
    (∃ result, (component.dereference lookup).outcome = .ok result) ↔
      ∀ request, component.Needs lookup.answer? request →
        (∃ stored, lookup.answer? request = some stored) ∧
          ¬ Relation.TransGen (Request.LeadsTo lookup.answer?) request request := by
  constructor
  · rintro ⟨result, hresult⟩ request
    exact (unfolds_of_dereference hresult).needs
  · exact exists_dereferenced

/-- What is found is the unfolding, and it is found whenever there is one. -/
theorem dereference_eq_ok {component result : Component} :
    (component.dereference lookup).outcome = .ok result ↔
      component.Unfolds lookup.answer? result := by
  constructor
  · exact unfolds_of_dereference
  · intro hunfolds
    obtain ⟨found, hfound⟩ := exists_dereferenced fun request => hunfolds.needs
    rw [hfound, (unfolds_of_dereference hfound).unique hunfolds]

end Component

end Resolve

/-! ## Registries -/

/-- **Dereferencing over a registry is exact.** It succeeds exactly when every request that is
reached from the references of the component has an answer and does not lead back to itself, and
what it then comes to is the unfolding of the component: the component with every reference in it
replaced, recursively, by what the registry stores for it. -/
theorem Registry.dereference_exact (registry : Registry) (component : Component) :
    ((∃ result, (component.dereference registry.lookup).outcome = .ok result) ↔
      ∀ request, component.Needs registry.get? request →
        (∃ stored, registry.get? request = some stored) ∧
          ¬ Relation.TransGen (Request.LeadsTo registry.get?) request request) ∧
    ∀ result, (component.dereference registry.lookup).outcome = .ok result ↔
      component.Unfolds registry.get? result := by
  rw [← registry.answer?_lookup]
  exact ⟨Component.exists_dereferenced_iff, fun _ => Component.dereference_eq_ok⟩

end Pipeline
