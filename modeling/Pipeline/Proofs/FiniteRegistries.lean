/-
Finite registries: dereferencing over one comes to an end, whatever is stored.

A registry answers finitely many requests (`Registry.answerable`): for each identifier
that is stored the one for its latest version, and for each component the one for its
own. A reference that is passed has a request that is answered and was not yet sent
around it, so the references in its answer have less *room*: fewer of these requests are
left for them. The references that are pending may become more at a step, but each of
the new ones has less room than the one that was passed, and no such steps go on for
ever (`Registry.wellFounded_passes`).

The same two facts bound a branch. The requests of a reference and of those around it
are distinct, and each of them is among those that are answered.
-/
import Mathlib.Data.List.Perm.Subperm
import Pipeline.Proofs.RequestOrder
import Pipeline.Proofs.StoredVersions

set_option autoImplicit false

namespace Pipeline

/-! ## Branches -/

namespace ReferenceSite

/-- The requests along the branch that ends with the reference, the innermost first. -/
def branch (ref : ReferenceSite) : List Request := ref.request :: ref.around

/-- One step of a tour, past a reference that repeats no request around it. -/
def Passes (answer : Request → Option Component) (before after : List ReferenceSite) : Prop :=
  ∃ ref, ref.IsFresh ∧ Tour answer before [ref] after

end ReferenceSite

/-- Where a component that is written out at a node stands in no answer, the node does not. -/
theorem Node.around_of_component {node : Node} {ref : ReferenceSite}
    (hcomponent : ∀ component, node.component? = some component →
      ∀ inner ∈ component.references, inner.around = [])
    (h : ref ∈ node.references) : ref.around = [] := by
  rcases node.target.component_or_request with ⟨component, hinline⟩ | ⟨request, hrequest⟩
  · rw [Node.references_of_component hinline] at h
    obtain ⟨inner, hinner, rfl⟩ := List.mem_map.1 h
    rw [ReferenceSite.under, hcomponent component hinline inner hinner]
    rfl
  · rw [Node.references_of_request hrequest] at h
    obtain rfl := List.mem_singleton.1 h
    rfl

/-- A tree by itself stands in no answer. -/
theorem Component.around_references {component : Component} {ref : ReferenceSite}
    (h : ref ∈ component.references) : ref.around = [] := by
  induction component using Component.induction generalizing ref with
  | step component ih =>
    rw [references_eq] at h
    obtain ⟨node, hnode, h⟩ := List.mem_flatMap.1 h
    refine Node.around_of_component (fun child hchild inner hinner => ?_) h
    exact ih child ⟨node, hnode, hchild⟩ hinner

theorem Node.around_references {node : Node} {ref : ReferenceSite} (h : ref ∈ node.references) :
    ref.around = [] :=
  Node.around_of_component (fun _ _ _ hinner => Component.around_references hinner) h

/-- A reference in an answer has the whole branch of the one that was answered around it. -/
theorem ReferenceSite.around_below {stored : Component} {outer inner : ReferenceSite}
    (h : inner ∈ stored.references) : (outer.below inner).around = outer.branch := by
  rw [below, under, Component.around_references h]
  rfl

/-- What a tour keeps as it passes a reference, it keeps all along. -/
theorem Tour.invariant {answer : Request → Option Component} {motive : ReferenceSite → Prop}
    (hstep : ∀ ref stored, motive ref → ref.IsFresh → answer ref.request = some stored →
      ∀ inner ∈ stored.references, motive (ref.below inner))
    {pending met rest : List ReferenceSite} (h : Tour answer pending met rest)
    (hfresh : ∀ ref ∈ met, ref.IsFresh) (hpending : ∀ ref ∈ pending, motive ref) :
    ∀ ref ∈ met, motive ref := by
  induction h with
  | stop => exact fun _ hmem => nomatch hmem
  | @pass ref stored pending met rest hanswer _ ih =>
    obtain ⟨hfirst, hothers⟩ := List.forall_mem_cons.1 hfresh
    obtain ⟨href, hbehind⟩ := List.forall_mem_cons.1 hpending
    refine List.forall_mem_cons.2 ⟨href, ih hothers (List.forall_mem_append.2 ⟨?_, hbehind⟩)⟩
    exact List.forall_mem_map.2 (hstep ref stored href hfirst hanswer)

namespace Registry

variable {registry : Registry}

/-! ## What is answered -/

/-- The requests that a registry answers: for the latest version of each identifier, and for each
version. -/
def answerable (registry : Registry) : List Request :=
  (registry.stored.map (·.id)).eraseDups.map .latest ++
    registry.stored.map fun component => .pinned component.id component.revision

theorem length_answerable (registry : Registry) :
    registry.answerable.length = registry.size + registry.stored.length := by
  rw [answerable, List.length_append, List.length_map, List.length_map, size]

theorem mem_answerable {request : Request} {component : Component}
    (h : registry.get? request = some component) : request ∈ registry.answerable := by
  rw [answerable, List.mem_append]
  cases request with
  | latest id =>
    rcases registry.latest?_cases id with ⟨-, hnone⟩ | ⟨newest, hmem, hid, -, -⟩
    · cases hnone.symm.trans h
    · refine .inl (List.mem_map_of_mem (List.mem_eraseDups.2 ?_))
      exact hid ▸ List.mem_map_of_mem hmem
  | pinned id version =>
    obtain ⟨rfl, rfl⟩ := Prod.mk.inj (key_of_pinned? h)
    exact .inr (List.mem_map.2 ⟨component, List.mem_of_find?_eq_some h, rfl⟩)

/-! ## Room -/

/-- The number of requests that are answered and were not yet sent around the reference. -/
def room (registry : Registry) (ref : ReferenceSite) : Nat :=
  (registry.answerable.filter (· ∉ ref.around)).length

/-- The references in an answer have less room. -/
theorem room_below_lt {ref inner : ReferenceSite} {stored : Component} (hfresh : ref.IsFresh)
    (hanswer : registry.get? ref.request = some stored) (hinner : inner ∈ stored.references) :
    registry.room (ref.below inner) < registry.room ref := by
  rw [room, room, ReferenceSite.around_below hinner, ReferenceSite.branch]
  have hsplit : registry.answerable.filter (· ∉ ref.request :: ref.around) =
      (registry.answerable.filter (· ∉ ref.around)).filter (· ≠ ref.request) := by
    rw [List.filter_filter]
    refine List.filter_congr fun request _ => ?_
    simp
  rw [hsplit, List.length_filter_lt_length_iff_exists]
  refine ⟨ref.request, List.mem_filter.2 ⟨mem_answerable hanswer, ?_⟩, by simp⟩
  exact decide_eq_true hfresh

/-- With one more reference pending there is still an end. -/
theorem acc_cons {ref : ReferenceSite} {pending : List ReferenceSite}
    (h : Acc (fun after before => ReferenceSite.Passes registry.get? before after) pending) :
    Acc (fun after before => ReferenceSite.Passes registry.get? before after) (ref :: pending) := by
  generalize hroom : registry.room ref = room
  induction room using Nat.strong_induction_on generalizing ref pending with
  | h room ih =>
    refine .intro _ ?_
    rintro after ⟨_, hfresh, htour⟩
    cases htour with
    | @pass _ stored _ _ _ hanswer hrest =>
      obtain rfl := hrest.eq_of_nil
      -- One after another, each with less room, the references in the answer are added.
      suffices hmore : ∀ refs ⊆ stored.references,
          Acc (fun after before => ReferenceSite.Passes registry.get? before after)
            (refs.map ref.below ++ pending) from hmore _ (List.Subset.refl _)
      intro refs hsubset
      induction refs with
      | nil => exact h
      | cons inner refs ihRefs =>
        obtain ⟨hinner, hrest⟩ := List.cons_subset.1 hsubset
        have hlt := room_below_lt hfresh hanswer hinner
        exact ih _ (hroom ▸ hlt) (ihRefs hrest) rfl

/-- References are not passed for ever. -/
theorem wellFounded_passes (registry : Registry) :
    WellFounded fun after before => ReferenceSite.Passes registry.get? before after := by
  refine ⟨fun pending => ?_⟩
  induction pending with
  | nil => exact .intro _ fun _ ⟨_, _, htour⟩ => nomatch htour
  | cons ref pending ih => exact acc_cons ih

/-! ## The end -/

/-- The requests along a branch are answered and distinct, and no more than there are identifiers
and versions. -/
structure Bounds (registry : Registry) (branch : List Request) : Prop where
  answered : ∀ request ∈ branch, ∃ stored, registry.get? request = some stored
  distinct : branch.Nodup
  length_le : branch.length ≤ registry.size + registry.stored.length

theorem bounds_of_nodup {branch : List Request}
    (hanswered : ∀ request ∈ branch, ∃ stored, registry.get? request = some stored)
    (hdistinct : branch.Nodup) : registry.Bounds branch := by
  refine ⟨hanswered, hdistinct, ?_⟩
  have hsubset : branch ⊆ registry.answerable := by
    intro request hrequest
    obtain ⟨stored, hstored⟩ := hanswered request hrequest
    exact mem_answerable hstored
  rw [← length_answerable]
  exact (List.subperm_of_subset hdistinct hsubset).length_le

/-- Some work comes to an end. It goes through references on a tour whose branches are bounded by
the registry, and has a result when the tour comes to its end, or an error when it stops at a
reference that repeats a request around it or has no answer. -/
def Returns {α : Type} (registry : Registry) (start : List ReferenceSite)
    (work : Asked (ResolutionError NotFound) α) : Prop :=
  ∃ met rest, Tour registry.get? start met rest ∧ (∀ ref ∈ met, registry.Bounds ref.branch) ∧
    ((∃ value, work.outcome = .ok value) ∧ rest = [] ∧ work.requests = met.map (·.request) ∨
      (∃ error, work.outcome = .error error) ∧ ∃ last pending, rest = last :: pending ∧
        (last.request ∈ last.around ∧ work.requests = met.map (·.request) ∨
          registry.get? last.request = none ∧ work.requests = (met ++ [last]).map (·.request)))

/-- The branches of a tour from a tree by itself are bounded. -/
theorem bounds_of_tour {start met rest : List ReferenceSite} (h : Tour registry.get? start met rest)
    (hstart : ∀ ref ∈ start, ref.around = []) (hfresh : ∀ ref ∈ met, ref.IsFresh) :
    ∀ ref ∈ met, registry.Bounds ref.branch := by
  -- Of the references that are pending it is kept that the requests around them are bounded.
  have haround : ∀ ref ∈ met, registry.Bounds ref.around := by
    refine h.invariant (fun ref stored hbounds href hanswer inner hinner => ?_) hfresh ?_
    · rw [ReferenceSite.around_below hinner]
      refine bounds_of_nodup ?_ (List.nodup_cons.2 ⟨href, hbounds.distinct⟩)
      exact List.forall_mem_cons.2 ⟨⟨stored, hanswer⟩, hbounds.answered⟩
    · intro ref hmem
      rw [hstart ref hmem]
      exact bounds_of_nodup (fun _ hrequest => nomatch hrequest) List.nodup_nil
  intro ref hmet
  have hbounds := haround ref hmet
  refine bounds_of_nodup ?_ (List.nodup_cons.2 ⟨hfresh ref hmet, hbounds.distinct⟩)
  exact List.forall_mem_cons.2 ⟨h.answered hmet, hbounds.answered⟩

theorem returns_of_tours {α : Type} {start : List ReferenceSite}
    {work : Asked (ResolutionError NotFound) α} (hstart : ∀ ref ∈ start, ref.around = [])
    (h : work.Tours registry.lookup start) : registry.Returns start work := by
  cases h with
  | through htour hfresh hrequests houtcome =>
    rw [registry.answer?_lookup] at htour
    exact ⟨_, _, htour, bounds_of_tour htour hstart hfresh, .inl ⟨⟨_, houtcome⟩, rfl, hrequests⟩⟩
  | @stopped met rest last sent error htour hfresh hfails hplace hrequests houtcome =>
    rw [registry.answer?_lookup] at htour
    refine ⟨met, last :: rest, htour, bounds_of_tour htour hstart hfresh, .inr ⟨⟨_, houtcome⟩, ?_⟩⟩
    refine ⟨last, rest, rfl, ?_⟩
    rw [← registry.answer?_lookup]
    rcases hfails.requests hrequests with ⟨hcircle, hsent⟩ | ⟨-, hnone, hsent⟩
    · exact .inl ⟨not_not.1 hcircle, hsent⟩
    · exact .inr ⟨hnone, hsent⟩

/-- **Dereferencing over a registry always returns.** References are not passed for ever, and so the
work on a component, a node, what a node holds, or a job comes to an end; along each branch the
requests that are answered are distinct, and no more than there are identifiers and versions. -/
theorem dereference_returns (registry : Registry) :
    (WellFounded fun after before => ReferenceSite.Passes registry.get? before after) ∧
      (∀ component : Component,
        registry.Returns component.references (component.dereference registry.lookup)) ∧
      (∀ node : Node, registry.Returns node.references (node.dereference registry.lookup)) ∧
      (∀ (id : String) (ref : NodeRef),
        registry.Returns (Node.references ⟨id, ref⟩) (ref.dereference registry.lookup id)) ∧
      ∀ job : Job, registry.Returns (Node.references ⟨rootNode, job.workflow.component⟩)
        (job.dereference registry.lookup) := by
  refine ⟨registry.wellFounded_passes, fun component => ?_, fun node => ?_, fun id ref => ?_,
    fun job => ?_⟩
  · exact returns_of_tours (fun _ => Component.around_references)
      (component.tours_dereference registry.lookup)
  -- Everything else is a node, or is taken for one.
  · exact returns_of_tours (fun _ => Node.around_references)
      (node.tours_dereference registry.lookup)
  · exact returns_of_tours (fun _ => Node.around_references)
      (ref.tours_dereference registry.lookup id)
  · exact returns_of_tours (fun _ => Node.around_references)
      (job.tours_dereference registry.lookup)

end Registry

end Pipeline
