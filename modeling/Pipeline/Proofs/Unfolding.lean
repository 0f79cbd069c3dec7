/-
Unfoldings: a tree with everything in it that its references stand for.

What requests are answered with is taken as given here, by a function. A component
*unfolds* to another one when that one has, in the place of every reference, an
unfolding of the component that answers it; everything else is the same. Nothing is
said about how an unfolding is found, nor that there is one. There is at most one
(`Component.Unfolds.unique`), and there is none where a request has no answer, or
leads back to itself: what a request unfolds to is smaller than what it stands in
(`Component.Unfolds.exists_smaller`), so that along requests which lead from one to
the next the unfoldings become smaller at every step.
-/
import Pipeline.Proofs.Expansion

set_option autoImplicit false

namespace Pipeline

/-! ## References -/

/-- Somewhere in the tree a node holds a reference with the request. -/
def Component.Refers (component : Component) (request : Request) : Prop :=
  ∃ inner, component.Within inner ∧
    ∃ node ∈ inner.children, node.target.request? = some request

/-- The component that answers the request refers to the next one. -/
def Request.LeadsTo (answer : Request → Option Component) (request next : Request) : Prop :=
  ∃ stored, answer request = some stored ∧ stored.Refers next

/-- The request is one of those of the component, or is reached from one of them. -/
def Component.Needs (answer : Request → Option Component) (component : Component)
    (request : Request) : Prop :=
  ∃ first, component.Refers first ∧
    Relation.ReflTransGen (Request.LeadsTo answer) first request

/-- The references of a component are those at its nodes and those of its children. -/
theorem Component.refers_iff {component : Component} {request : Request} :
    component.Refers request ↔
      (∃ node ∈ component.children, node.target.request? = some request) ∨
        ∃ child, component.HasChild child ∧ child.Refers request := by
  constructor
  · rintro ⟨inner, hinner, hnode⟩
    rcases within_iff.1 hinner with rfl | ⟨child, hchild, hinner⟩
    · exact .inl hnode
    · exact .inr ⟨child, hchild, inner, hinner, hnode⟩
  · rintro (hnode | ⟨child, hchild, inner, hinner, hnode⟩)
    · exact ⟨component, Within.refl component, hnode⟩
    · exact ⟨inner, hinner.below hchild, hnode⟩

/-! ## Unfoldings -/

mutual

/-- The second component is the first one with everything in it that its references stand for. -/
inductive Component.Unfolds (answer : Request → Option Component) : Component → Component → Prop
  where
  | intro {component : Component} {nodes : List Node}
      (hnodes : List.Forall₂ (Node.Unfolds answer) component.children nodes) :
      Component.Unfolds answer component (component.withChildren nodes)

/-- The second node has the identifier of the first one, and holds what that one stands for. -/
inductive Node.Unfolds (answer : Request → Option Component) : Node → Node → Prop where
  /-- A component that is written out stands for itself. -/
  | inline {node : Node} {component result : Component}
      (hcomponent : node.component? = some component)
      (hunfolds : Component.Unfolds answer component result) :
      Node.Unfolds answer node ⟨node.id, .inline result⟩
  /-- A reference stands for the component that answers its request. -/
  | reference {node : Node} {request : Request} {stored result : Component}
      (hrequest : node.target.request? = some request) (hanswer : answer request = some stored)
      (hunfolds : Component.Unfolds answer stored result) :
      Node.Unfolds answer node ⟨node.id, .inline result⟩

end

/-- A request unfolds to what the component that answers it unfolds to. -/
def Request.UnfoldsTo (answer : Request → Option Component) (request : Request)
    (result : Component) : Prop :=
  ∃ stored, answer request = some stored ∧ stored.Unfolds answer result

variable {answer : Request → Option Component}

namespace Node.Unfolds

variable {node result : Node}

/-- A node that holds a component unfolds to one that holds an unfolding of it. -/
theorem of_component (h : node.Unfolds answer result) {component : Component}
    (hcomponent : node.component? = some component) :
    ∃ child, result = ⟨node.id, .inline child⟩ ∧ component.Unfolds answer child := by
  cases h with
  | @inline _ found child hfound hunfolds =>
    obtain rfl := Option.some.inj (hfound.symm.trans hcomponent)
    exact ⟨child, rfl, hunfolds⟩
  | reference hrequest _ _ =>
    rw [NodeRef.request?_of_component hcomponent] at hrequest
    cases hrequest

/-- A node that holds a reference unfolds to one that holds what the request unfolds to. -/
theorem of_request (h : node.Unfolds answer result) {request : Request}
    (hrequest : node.target.request? = some request) :
    ∃ child, result = ⟨node.id, .inline child⟩ ∧ request.UnfoldsTo answer child := by
  cases h with
  | inline hcomponent _ =>
    rw [NodeRef.request?_of_component hcomponent] at hrequest
    cases hrequest
  | @reference _ found stored child hfound hanswer hunfolds =>
    obtain rfl := Option.some.inj (hfound.symm.trans hrequest)
    exact ⟨child, rfl, stored, hanswer, hunfolds⟩

end Node.Unfolds

namespace Component.Unfolds

variable {component result : Component}

/-- The nodes of a component unfold to the nodes of what it unfolds to. -/
theorem forall₂_children (h : component.Unfolds answer result) :
    List.Forall₂ (Node.Unfolds answer) component.children result.children := by
  cases h with
  | intro hnodes => rwa [children_withChildren hnodes.length_eq]

theorem eq_withChildren (h : component.Unfolds answer result) :
    result = component.withChildren result.children := by
  cases h with
  | intro hnodes => rw [children_withChildren hnodes.length_eq]

/-- A component has one unfolding at most. -/
theorem unique {other : Component} (h : component.Unfolds answer result)
    (h' : component.Unfolds answer other) : result = other := by
  -- By induction on the unfolding, which unlike the component holds all that was put in.
  induction result using Component.induction generalizing component other with
  | step result ih =>
    have hnodes : result.children = other.children := by
      refine related_unique h.forall₂_children h'.forall₂_children ?_
      intro node unfolded hmem unfolded' hunfolds hunfolds'
      rcases node.target.component_or_request with ⟨inner, hinner⟩ | ⟨request, hrequest⟩
      · obtain ⟨child, rfl, hchild⟩ := hunfolds.of_component hinner
        obtain ⟨child', rfl, hchild'⟩ := hunfolds'.of_component hinner
        rw [ih child ⟨_, hmem, rfl⟩ hchild hchild']
      · obtain ⟨child, rfl, stored, hanswer, hchild⟩ := hunfolds.of_request hrequest
        obtain ⟨child', rfl, stored', hanswer', hchild'⟩ := hunfolds'.of_request hrequest
        obtain rfl := Option.some.inj (hanswer.symm.trans hanswer')
        rw [ih child ⟨_, hmem, rfl⟩ hchild hchild']
    rw [h.eq_withChildren, h'.eq_withChildren, hnodes]

/-! ## What is put in is smaller -/

/-- A component that is written out somewhere in the tree has its place in the unfolding. -/
theorem exists_within (h : component.Unfolds answer result) {inner : Component}
    (hinner : component.Within inner) :
    ∃ unfolded, result.Within unfolded ∧ inner.Unfolds answer unfolded := by
  induction hinner with
  | refl => exact ⟨result, Within.refl result, h⟩
  | tail _ hchild ih =>
    obtain ⟨unfolded, hwithin, hunfolds⟩ := ih
    obtain ⟨node, hnode, hcomponent⟩ := hchild
    obtain ⟨place, hplace, hnode⟩ := exists_related hunfolds.forall₂_children hnode
    obtain ⟨child, rfl, hchild⟩ := hnode.of_component hcomponent
    exact ⟨child, hwithin.child ⟨_, hplace, rfl⟩, hchild⟩

/-- What a reference stands for has its place in the unfolding, which is larger. -/
theorem exists_smaller (h : component.Unfolds answer result) {request : Request}
    (hrefers : component.Refers request) :
    ∃ inner, request.UnfoldsTo answer inner ∧ sizeOf inner < sizeOf result := by
  obtain ⟨holder, hholder, node, hnode, hrequest⟩ := hrefers
  obtain ⟨unfolded, hwithin, hunfolds⟩ := h.exists_within hholder
  obtain ⟨place, hplace, hnode⟩ := exists_related hunfolds.forall₂_children hnode
  obtain ⟨child, rfl, hchild⟩ := hnode.of_request hrequest
  have hsmaller : sizeOf child < sizeOf unfolded := sizeOf_child hplace rfl
  exact ⟨child, hchild, Nat.lt_of_lt_of_le hsmaller hwithin.sizeOf_le⟩

end Component.Unfolds

namespace Request.UnfoldsTo

variable {request next : Request} {result other : Component}

theorem unique (h : request.UnfoldsTo answer result) (h' : request.UnfoldsTo answer other) :
    result = other := by
  obtain ⟨stored, hanswer, hunfolds⟩ := h
  obtain ⟨stored', hanswer', hunfolds'⟩ := h'
  obtain rfl := Option.some.inj (hanswer.symm.trans hanswer')
  exact hunfolds.unique hunfolds'

/-- A request leads to requests with smaller unfoldings. -/
theorem exists_smaller (h : request.UnfoldsTo answer result)
    (hleads : request.LeadsTo answer next) :
    ∃ inner, next.UnfoldsTo answer inner ∧ sizeOf inner < sizeOf result := by
  obtain ⟨stored, hanswer, hunfolds⟩ := h
  obtain ⟨stored', hanswer', hrefers⟩ := hleads
  obtain rfl := Option.some.inj (hanswer.symm.trans hanswer')
  exact hunfolds.exists_smaller hrefers

/-- However many requests lead on, the unfoldings become smaller all the way. -/
theorem exists_smaller_of_transGen (h : request.UnfoldsTo answer result)
    (hleads : Relation.TransGen (Request.LeadsTo answer) request next) :
    ∃ inner, next.UnfoldsTo answer inner ∧ sizeOf inner < sizeOf result := by
  induction hleads with
  | single hstep => exact h.exists_smaller hstep
  | tail _ hstep ih =>
    obtain ⟨between, hbetween, hlt⟩ := ih
    obtain ⟨inner, hinner, hlt'⟩ := hbetween.exists_smaller hstep
    exact ⟨inner, hinner, Nat.lt_trans hlt' hlt⟩

/-- A request that unfolds does not lead back to itself. -/
theorem not_circular (h : request.UnfoldsTo answer result) :
    ¬ Relation.TransGen (Request.LeadsTo answer) request request := by
  intro hcircle
  obtain ⟨inner, hinner, hlt⟩ := h.exists_smaller_of_transGen hcircle
  rw [hinner.unique h] at hlt
  exact Nat.lt_irrefl _ hlt

end Request.UnfoldsTo

/-- A component with an unfolding needs nothing that has no answer, or leads back to itself. -/
theorem Component.Unfolds.needs {component result : Component}
    (h : component.Unfolds answer result) {request : Request}
    (hneeds : component.Needs answer request) :
    (∃ stored, answer request = some stored) ∧
      ¬ Relation.TransGen (Request.LeadsTo answer) request request := by
  obtain ⟨first, hfirst, hleads⟩ := hneeds
  obtain ⟨inner, hinner, -⟩ := h.exists_smaller hfirst
  have hunfolds : ∃ further, request.UnfoldsTo answer further := by
    rcases Relation.reflTransGen_iff_eq_or_transGen.1 hleads with rfl | hleads
    · exact ⟨inner, hinner⟩
    · obtain ⟨further, hfurther, -⟩ := hinner.exists_smaller_of_transGen hleads
      exact ⟨further, hfurther⟩
  obtain ⟨further, hfurther⟩ := hunfolds
  have hcircle := hfurther.not_circular
  obtain ⟨stored, hanswer, -⟩ := hfurther
  exact ⟨⟨stored, hanswer⟩, hcircle⟩

end Pipeline
