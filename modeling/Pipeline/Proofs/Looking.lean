/-
Looking: work on the world that leaves it as it is.

References are resolved here as they are met, each with a look at the disk at its own
time, and what was done to the world before a failure is not taken back. Elsewhere the
answers to all references are those of one disk (`resolve`). That this makes no
difference is due to one property of work, that it looks at the disk and does nothing
else (`Action.Looks`). The property passes from the parts of a chain to the chain, from
the nodes of a component to the component, and, as the trail grows, from the answer to
what the answer is resolved to.
-/
import Pipeline.Command.Run
import Pipeline.Proofs.Expansion

set_option autoImplicit false

namespace Pipeline

/-! ## Work on the world -/

/-- Work that finds a world, of what was printed and a disk, and leaves one behind, also when it
fails. -/
def Action (ε α : Type) := Outcome → Except ε α × Outcome

namespace Action

variable {ε ε' α β : Type}

/-- Work that does nothing. -/
def of (outcome : Except ε α) : Action ε α := fun world => (outcome, world)

/-- Work that goes on with an outcome in the world that is left; nothing is taken back after a
failure. -/
def bind (work : Action ε α) (next : α → Action ε β) : Action ε β := fun world =>
  match work world with
  | (.ok value, world) => next value world
  | (.error cause, world) => (.error cause, world)

instance : Monad (Action ε) where
  pure value := of (.ok value)
  bind := bind

instance : LawfulMonad (Action ε) := LawfulMonad.mk' (Action ε)
  (fun work => funext fun world => by
    show (match work world with
      | (.ok value, world) => (.ok value, world)
      | (.error cause, world) => (.error cause, world)) = work world
    rcases work world with ⟨cause | value, world⟩ <;> rfl)
  (fun _ _ => rfl)
  (fun work next last => funext fun world => by
    show Action.bind (Action.bind work next) last world =
      Action.bind work (fun value => Action.bind (next value) last) world
    simp only [Action.bind]
    rcases work world with ⟨cause | value, world⟩ <;> rfl)

/-- Work with its failures seen from elsewhere. -/
def mapError (f : ε → ε') (work : Action ε α) : Action ε' α := fun world =>
  ((work world).1.mapError f, (work world).2)

/-- Asks something of the disk. -/
def look (query : Disk → Except ε α) : Action ε α := fun world => (query world.disk, world)

/-- Prints a text. -/
def print (text : String) : Action ε Unit := fun world =>
  (.ok (), { world with standardOutput := world.standardOutput ++ text })

/-- Writes a file. -/
def save (path content : String) : Action FileFault Unit := fun world =>
  match world.disk.write path content with
  | .ok disk => (.ok (), { world with disk })
  | .error cause => (.error cause, world)

/-- The work looks at the disk and leaves the world as it is, whatever comes of it. -/
def Looks (work : Action ε α) (query : Disk → Except ε α) : Prop :=
  ∀ world, work world = (query world.disk, world)

namespace Looks

theorem of (outcome : Except ε α) : Looks (.of outcome) fun _ => outcome := fun _ => rfl

theorem look (query : Disk → Except ε α) : Looks (.look query) query := fun _ => rfl

theorem mapError {work : Action ε α} {query : Disk → Except ε α} (f : ε → ε')
    (h : work.Looks query) : (work.mapError f).Looks fun disk => (query disk).mapError f := by
  intro world
  rw [Action.mapError, h world]

theorem bind {work : Action ε α} {query : Disk → Except ε α} {next : α → Action ε β}
    {rest : α → Disk → Except ε β} (h : work.Looks query)
    (hnext : ∀ value, (next value).Looks (rest value)) :
    (work >>= next).Looks fun disk => query disk >>= fun value => rest value disk := by
  intro world
  show Action.bind work next world = _
  rw [Action.bind, h world]
  cases hquery : query world.disk with
  | error cause => simp only [hquery]; rfl
  | ok value => simp only [hquery]; exact hnext value world

theorem mapM {step : α → Action ε β} {query : α → Disk → Except ε β} {values : List α}
    (h : ∀ value ∈ values, (step value).Looks (query value)) :
    Looks (values.mapM step) fun disk => values.mapM fun value => query value disk := by
  induction values with
  | nil => exact Looks.of (.ok [])
  | cons value values ih =>
    simp only [List.mapM_cons]
    refine bind (h value List.mem_cons_self) fun first => ?_
    refine bind (ih fun other hother => h other (List.mem_cons_of_mem _ hother)) fun rest => ?_
    exact Looks.of (.ok (first :: rest))

end Looks

end Action

/-! ## References -/

section References

variable {ε : Type}

/-- The work for what a node holds: that for its component, or that for its reference. -/
def NodeRef.fill (resolver : String → Request → Action (ResolutionError ε) Component)
    (id : String) : (ref : NodeRef) →
    ((child : Component) → ref.component? = some child → Action (ResolutionError ε) Component) →
    Action (ResolutionError ε) Component
  | .inline child, work => (work child rfl).mapError (Located.within id)
  | .latest stored, _ => resolver id (.latest stored)
  | .pinned stored version, _ => resolver id (.pinned stored version)

/-- The work of resolving every reference in a component, by the work for one. -/
def Component.fill (resolver : String → Request → Action (ResolutionError ε) Component)
    (component : Component) : Action (ResolutionError ε) Component := do
  let nodes ← component.children.attach.mapM fun ⟨node, _⟩ => do
    let child ← node.target.fill resolver node.id fun child _ => child.fill resolver
    return (⟨node.id, .inline child⟩ : Node)
  return component.withChildren nodes
termination_by sizeOf component
decreasing_by exact HasChild.sizeOf_lt ⟨node, ‹_›, ‹_›⟩

/-- The work for one request, which is asked anew whenever it is met. -/
def fetch (answer : Request → Action ε Component) (trail : Trail) (node : String)
    (request : Request) : Action (ResolutionError ε) Component :=
  if h : request ∈ trail.requests then .of (.error (.here (.cycle node request)))
  else do
    let component ← (answer request).mapError fun cause => .here (.lookup node request cause)
    (component.fill (fetch answer (trail.push request h))).mapError (Located.within node)
termination_by trail.room
decreasing_by exact trail.room_push_lt _ _

variable {resolver : String → Request → Action (ResolutionError ε) Component}
variable {query : Disk → Resolver ε}

theorem Component.fill_eq (component : Component) :
    component.fill resolver = do
      let nodes ← component.children.mapM fun node => do
        let child ← node.target.fill resolver node.id fun child _ => child.fill resolver
        return (⟨node.id, .inline child⟩ : Node)
      return component.withChildren nodes := by
  rw [fill, List.mapM_subtype (fun _ _ => rfl), List.unattach_attach]
  rfl

theorem NodeRef.fill_looks {id : String} {ref : NodeRef}
    {work : (child : Component) → ref.component? = some child → Action (ResolutionError ε) Component}
    (hresolver : ∀ request, (resolver id request).Looks fun disk => (query disk id request).outcome)
    (hwork : ∀ child h, (work child h).Looks fun disk => (child.expand (query disk)).outcome) :
    (ref.fill resolver id work).Looks fun disk => (ref.expand (query disk) id).outcome := by
  cases ref with
  | inline child => exact .mapError (Located.within id) (hwork child rfl)
  | latest stored => exact hresolver (.latest stored)
  | pinned stored version => exact hresolver (.pinned stored version)

/-- Where the work for a reference only looks at the disk, so does the work for a component. -/
theorem Component.fill_looks
    (hresolver : ∀ node request,
      (resolver node request).Looks fun disk => (query disk node request).outcome)
    (component : Component) :
    (component.fill resolver).Looks fun disk => (component.expand (query disk)).outcome := by
  induction component using Component.induction with
  | step component ih =>
    simp only [expand_eq, Asked.outcome_bind, Asked.outcome_mapM]
    rw [fill_eq]
    refine .bind (.mapM fun node hnode => ?_) fun nodes => .of (.ok _)
    obtain ⟨id, target⟩ := node
    simp only [Node.expand, Asked.outcome_bind]
    refine .bind (NodeRef.fill_looks (hresolver id) fun child hchild => ?_) fun child => .of (.ok _)
    exact ih child ⟨_, hnode, hchild⟩

/-- Where the answers are looked up on the disk, so is what a request stands for. -/
theorem fetch_looks {answer : Request → Action ε Component} {lookup : Disk → Lookup ε}
    (hanswer : ∀ request, (answer request).Looks fun disk => lookup disk request)
    (trail : Trail) (node : String) (request : Request) :
    (fetch answer trail node request).Looks fun disk =>
      (resolve (lookup disk) trail node request).outcome := by
  rw [fetch]
  by_cases h : request ∈ trail.requests
  · have hresolve : ∀ disk, (resolve (lookup disk) trail node request).outcome =
        .error (.here (.cycle node request)) := by
      intro disk
      rw [resolve, dif_pos h, Asked.outcome_fail]
    rw [dif_pos h]
    simp only [hresolve]
    exact .of _
  · have hresolve : ∀ disk, (resolve (lookup disk) trail node request).outcome =
        (lookup disk request).mapError (fun cause => .here (.lookup node request cause)) >>=
          fun component =>
            (component.expand (resolve (lookup disk) (trail.push request h))).outcome.mapError
              (Located.within node) := by
      intro disk
      rw [resolve, dif_neg h, Asked.outcome_after]
      cases lookup disk request <;> rfl
    rw [dif_neg h]
    simp only [hresolve]
    refine .bind (.mapError _ (hanswer request)) fun component => .mapError _ ?_
    exact component.fill_looks fun inner next => fetch_looks hanswer (trail.push request h) inner next
termination_by trail.room
decreasing_by exact trail.room_push_lt _ _

/-- The work of resolving every reference in the root of a job. -/
def Job.fill (answer : Request → Action ε Component) (job : Job) :
    Action (ResolutionError ε) Job := do
  let component ← job.workflow.component.fill (fetch answer .empty) rootNode
    fun child _ => child.fill (fetch answer .empty)
  return { job with workflow := { job.workflow with component := .inline component } }

theorem Job.fill_looks {answer : Request → Action ε Component} {lookup : Disk → Lookup ε}
    (hanswer : ∀ request, (answer request).Looks fun disk => lookup disk request) (job : Job) :
    (job.fill answer).Looks fun disk => (job.dereference (lookup disk)).outcome := by
  have hresolver := fetch_looks hanswer .empty
  simp only [Job.dereference, Asked.outcome_bind]
  refine .bind (NodeRef.fill_looks (hresolver rootNode) fun child _ => ?_) fun component =>
    .of (.ok _)
  exact child.fill_looks hresolver

end References

end Pipeline
