/-
Errors are addressed by real paths.

While a tree is lowered, each component that is entered puts its identifier around
the errors from inside: on the way down the tree, when the arguments of a task are
looked up at a child or at its sibling, and when a claim asks a component what
backs one of its outputs. Whichever of these comes together, the identifiers around
an error are those of components that stand one inside the other, starting with the
component where the work began (`Component.Addresses`).

This is a rule about faults that goes up the tree, so `allTemplates_failsWith` needs
nothing more than the claims to obey it, and for those the walk of a claim is
followed, inwards and along the edges.
-/
import Pipeline.Proofs.LoweringFaults

set_option autoImplicit false

namespace Pipeline

/-! ## Errors as they are nested -/

/-- An error as it is nested: a cause, or a place around an error from further inside. -/
inductive Nested (ι ε : Type) where
  | cause (cause : ε)
  | within (place : ι) (source : Nested ι ε)

namespace Nested

variable {ι ε : Type}

/-- The innermost error. -/
def root : Nested ι ε → Nested ι ε
  | error@(.cause _) => error
  | .within _ source => source.root

/-- The places around the innermost error, the outermost first. -/
def path : Nested ι ε → List ι
  | .cause _ => []
  | .within place source => place :: source.path

/-- The error is a place around another error. -/
def IsWrapper : Nested ι ε → Prop
  | .cause _ => False
  | .within _ _ => True

theorem root_not_isWrapper (error : Nested ι ε) : ¬ error.root.IsWrapper := by
  induction error with
  | cause _ => exact not_false
  | within place source ih => exact ih

end Nested

namespace Located

variable {ι ε : Type}

/-- A cause with the places around it, nested. -/
def nested (error : Located ι ε) : Nested ι ε :=
  error.path.foldr .within (.cause error.cause)

theorem nested_within (place : ι) (error : Located ι ε) :
    (error.within place).nested = .within place error.nested := rfl

/-- Any error is a cause with places put around it one after the other. -/
theorem nesting_induction {motive : Located ι ε → Prop} (here : ∀ cause, motive (here cause))
    (within : ∀ place error, motive error → motive (error.within place)) (error : Located ι ε) :
    motive error := by
  obtain ⟨path, cause⟩ := error
  induction path with
  | nil => exact here cause
  | cons place path ih => exact within place ⟨path, cause⟩ ih

theorem path_nested (error : Located ι ε) : error.nested.path = error.path := by
  induction error using nesting_induction with
  | here cause => rfl
  | within place error ih =>
    rw [nested_within, Nested.path, ih]
    rfl

theorem root_nested (error : Located ι ε) : error.nested.root = .cause error.cause := by
  induction error using nesting_induction with
  | here cause => rfl
  | within place error ih =>
    rw [nested_within, Nested.root, ih]
    rfl

end Located

/-! ## Addresses -/

/-- The places around the error are components below this one, each a child of the one before. -/
def Component.Addresses (component : Component) (error : LoweringError) : Prop :=
  ∃ below : List Component,
    (component :: below).IsChain HasChild ∧ below.map Component.id = error.path

namespace Component

theorem Addresses.here (component : Component) (cause : LoweringFault) :
    component.Addresses (.here cause) :=
  ⟨[], .singleton component, rfl⟩

theorem Addresses.within {component child : Component} {error : LoweringError}
    (h : child.Addresses error) (hchild : component.HasChild child) :
    component.Addresses (error.within child.id) := by
  obtain ⟨below, hchain, hpath⟩ := h
  refine ⟨child :: below, List.isChain_cons_cons.2 ⟨hchild, hchain⟩, ?_⟩
  rw [List.map_cons, hpath]
  rfl

theorem addresses_faultRule : FaultRule Addresses where
  own := fun component cause _ => .here component cause
  child := fun _ _ _ hchild herror => herror.within hchild

/-! ## Claims -/

/-- Nodes of a composite answer within it when the components at them answer within themselves. -/
theorem carriedAt_addressed {component : Component}
    (hchildren : ∀ child, component.HasChild child → ∀ port,
      FailsWith child.Addresses (child.carried port)) (ref : PortRef) :
    FailsWith component.Addresses (Node.carriedAt component.wiring.nodes ref) := by
  refine Node.carriedAt_failsWith (fun _ => .here component _) (fun node _ => ?_) ?_
  · exact node.component_failsWith fun _ => .here component _
  · intro node hnode child hcomponent
    have hchild := hasChild_of_node hnode hcomponent
    exact (hchildren child hchild ref.port).mono fun _ herror => herror.within hchild

/-- However many steps a walk takes, it stays in its composite. -/
theorem trace_addressed {component : Component}
    (hcarried : ∀ ref, FailsWith component.Addresses (Node.carriedAt component.wiring.nodes ref))
    (steps : Nat) (claim : PortRef) :
    FailsWith component.Addresses
      (component.wiring.trace (Node.carriedAt component.wiring.nodes) steps claim) := by
  induction steps generalizing claim with
  | zero => exact FailsWith.fault (.here component _)
  | succ steps ih =>
    refine Graph.trace_succ_failsWith (fun _ _ => .here component _) ?_ ?_
    · intro edge _
      exact hcarried edge.source
    · intro edge _ _ input
      exact ih ⟨edge.source.node, input⟩

/-- The question for the input behind an output goes down the tree, and so do its errors. -/
theorem carried_addressed (component : Component) (port : String) :
    FailsWith component.Addresses (component.carried port) := by
  induction component using Component.induction generalizing port with
  | step component ih =>
    rcases component.brick_or_composite with ⟨brick, hbrick⟩ | hcomposite
    · rw [carried_of_brick port hbrick]
      exact FailsWith.ok _
    · rw [carried_of_composite port hcomposite]
      have hcarried := carriedAt_addressed ih
      refine Graph.traceOutput_failsWith (fun mapping _ => hcarried mapping.source) ?_ port
      exact trace_addressed hcarried _

theorem traceInput_addressed (component : Component) (claim : PortRef) :
    FailsWith component.Addresses (component.wiring.traceInput claim) :=
  trace_addressed (carriedAt_addressed fun child _ => child.carried_addressed) _ claim

/-! ## Whole trees -/

theorem allTemplates_addressed (component : Component) (settings : Settings) (scopes : Scopes) :
    FailsWith component.Addresses (component.allTemplates settings scopes) := by
  refine allTemplates_failsWith addresses_faultRule (fun _ => True) settings ?_ ?_ ?_ ?_ component
    trivial scopes
  · intro _ _ _ _
    trivial
  · intro component _ node _
    exact node.component_failsWith fun _ => .here component _
  · intro component _ edge _
    refine Graph.component_failsWith (fun _ => .here component _) fun node _ => ?_
    exact node.component_failsWith fun _ => .here component _
  · intro component _ claim
    exact component.traceInput_addressed claim

/-- **Errors are addressed by a real path.** When a tree that passed its validation cannot be
lowered, whatever is bound and however the settings are, the error has at least one place around it,
and its places are the identifiers along a path down the tree, from the root and each time to a
component that is written out at a node of the one before. Nested, the error has the same places,
and what is found inside all of them is its cause and no place around a further error. -/
theorem errors_follow_tree {component : Component} {settings : Settings} {scopes : Scopes}
    {error : LoweringError} (hvalid : component.validate = .ok ())
    (h : component.templates settings scopes = .error error) :
    error.path ≠ [] ∧
      (∃ below : List Component, (component :: below).IsChain HasChild ∧
        (component :: below).map Component.id = error.path) ∧
      error.nested.path = error.path ∧ error.nested.root = .cause error.cause ∧
      ¬ error.nested.root.IsWrapper := by
  have hinside : FailsWith (fun error => ∃ inner : LoweringError,
      component.Addresses inner ∧ error = inner.within component.id)
      (component.templates settings scopes) := by
    refine FailsWith.map Manifest.Template.distinct ?_
    rw [templatesWithRepeats, hvalid]
    refine FailsWith.inside ((component.allTemplates_addressed settings scopes).mono ?_)
    exact fun inner hinner => ⟨inner, hinner, rfl⟩
  obtain ⟨inner, ⟨below, hchain, hpath⟩, rfl⟩ := hinside error h
  have hplaces : (component :: below).map Component.id = (inner.within component.id).path := by
    rw [List.map_cons, hpath]
    rfl
  refine ⟨?_, ⟨below, hchain, hplaces⟩, Located.path_nested _, Located.root_nested _,
    Nested.root_not_isWrapper _⟩
  rw [← hplaces]
  exact List.cons_ne_nil _ _

/-- A claim of the first node leads through two graphs to a dead end. -/
def distantDeadEnd : Component :=
  let chain := volumeGraph 3 [] ["volume"]
    ⟨[⟨"a", .inline (volumeBrick 1)⟩, ⟨"b", .inline (volumeBrick 2)⟩],
      [⟨⟨"a", "out"⟩, ⟨"b", "in"⟩⟩], [], [⟨⟨"b", "out"⟩, "volume"⟩]⟩
  let graph := volumeGraph 4 [] ["volume"]
    ⟨[⟨"chain", .inline chain⟩], [], [], [⟨⟨"chain", "volume"⟩, "volume"⟩]⟩
  volumeGraph 5 [] []
    ⟨[⟨"last", .inline (volumeBrick 1)⟩, ⟨"graph", .inline graph⟩],
      [⟨⟨"graph", "volume"⟩, ⟨"last", "in"⟩⟩], [], []⟩

/-- The dead end is addressed by the graphs around it. -/
theorem distantDeadEnd_path :
    distantDeadEnd.validate = .ok () ∧ ∃ error,
      distantDeadEnd.templates .default .empty = .error error ∧
      error.path = [.repeating 5, .repeating 4, .repeating 3] ∧
      ∃ below : List Component, (distantDeadEnd :: below).IsChain HasChild ∧
        (distantDeadEnd :: below).map Component.id = error.path := by
  have hvalid : distantDeadEnd.validate = .ok () := by decide
  have hfails : distantDeadEnd.templates .default .empty =
      .error ⟨[.repeating 5, .repeating 4, .repeating 3], .unresolvedClaim "a" "in"⟩ := by decide
  exact ⟨hvalid, _, hfails, rfl, (errors_follow_tree hvalid hfails).2.1⟩

end Component

end Pipeline
