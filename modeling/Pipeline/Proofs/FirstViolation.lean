/-
Validation finds the first violation.

What validation asks of a tree it asks of every component in it by itself, so a
tree passes when each of its components is sound (`Component.IsSound`). When it
does not pass, one of several violations has to be told, and which one is a matter
of two orders: that of the components, each before those below it
(`Component.preorder`), and that of the checks of one component
(`Component.FailsFirst`).

Recursion, early ends and the places that are put in front of an error on its way
out come to no more than this: going through the components in pre-order, checking
each, and putting the nodes that lead to it in front of its fault
(`Component.validate_eq_forM`). The rest is about one list and one component.
-/
import Pipeline.Proofs.Acyclicity

set_option autoImplicit false

namespace Pipeline

/-! ## Names -/

/-- The name stands in the list once more, and no earlier one does. -/
def RepeatsFirst (names : List String) (name : String) : Prop :=
  ∃ before after, names = before ++ name :: after ∧ before.Nodup ∧ name ∈ before

/-- The name is not a known one, and all earlier ones are. -/
def StraysFirst (names : List String) (known : String → Prop) (name : String) : Prop :=
  ∃ before after, names = before ++ name :: after ∧ (∀ other ∈ before, known other) ∧ ¬ known name

theorem firstRepeated?_eq_some {seen names : List String} {name : String} :
    firstRepeated? seen names = some name ↔
      ∃ before after, names = before ++ name :: after ∧ before.Nodup ∧
        (∀ other ∈ before, other ∉ seen) ∧ (name ∈ before ∨ name ∈ seen) := by
  induction names generalizing seen with
  | nil => simp [firstRepeated?]
  | cons first names ih =>
    rw [firstRepeated?]
    by_cases hseen : first ∈ seen
    · rw [if_pos hseen, Option.some.injEq]
      constructor
      · rintro rfl
        exact ⟨[], names, rfl, List.nodup_nil, by simp, .inr hseen⟩
      · rintro ⟨before, after, hsplit, -, hfresh, -⟩
        cases before with
        | nil => exact (List.cons.inj hsplit).1
        | cons other before =>
          obtain ⟨rfl, -⟩ := List.cons.inj hsplit
          exact absurd hseen (hfresh first List.mem_cons_self)
    · rw [if_neg hseen, ih]
      constructor
      · rintro ⟨before, after, rfl, hnodup, hfresh, hname⟩
        have hfirst : first ∉ before := fun hmem => hfresh first hmem List.mem_cons_self
        refine ⟨first :: before, after, rfl, List.nodup_cons.2 ⟨hfirst, hnodup⟩, ?_, ?_⟩
        · refine List.forall_mem_cons.2 ⟨hseen, fun other hother hmem => ?_⟩
          exact hfresh other hother (List.mem_cons_of_mem _ hmem)
        · simp only [List.mem_cons] at hname ⊢
          tauto
      · rintro ⟨before, after, hsplit, hnodup, hfresh, hname⟩
        cases before with
        | nil =>
          obtain ⟨rfl, -⟩ := List.cons.inj hsplit
          exact absurd (hname.resolve_left List.not_mem_nil) hseen
        | cons other before =>
          obtain ⟨rfl, rfl⟩ := List.cons.inj hsplit
          obtain ⟨hfirst, hnodup⟩ := List.nodup_cons.1 hnodup
          refine ⟨before, after, rfl, hnodup, fun other hother hmem => ?_, ?_⟩
          · rcases List.mem_cons.1 hmem with rfl | hmem
            · exact hfirst hother
            · exact hfresh other (List.mem_cons_of_mem _ hother) hmem
          · simp only [List.mem_cons] at hname ⊢
            tauto

theorem firstRepeated?_nil_eq_some {names : List String} {name : String} :
    firstRepeated? [] names = some name ↔ RepeatsFirst names name := by
  rw [firstRepeated?_eq_some]
  simp [RepeatsFirst]

theorem find?_eq_some_iff_straysFirst {test : String → Bool} {known : String → Prop}
    (htest : ∀ name, test name = true ↔ ¬ known name) {names : List String} {name : String} :
    names.find? test = some name ↔ StraysFirst names known name := by
  have hpasses : ∀ other, (!test other) = true ↔ known other := by
    intro other
    rw [Bool.not_eq_true', Bool.eq_false_iff, ne_eq, htest, not_not]
  simp only [List.find?_eq_some_iff_append, hpasses, htest, StraysFirst]
  exact ⟨fun ⟨hname, before, after, hsplit, hbefore⟩ => ⟨before, after, hsplit, hbefore, hname⟩,
    fun ⟨before, after, hsplit, hbefore, hname⟩ => ⟨hname, before, after, hsplit, hbefore⟩⟩

/-! ## What a component has to satisfy -/

namespace Implementation

/-- What an implementation connects is its own. A graph has nodes with distinct identifiers, which
its connections name, and no circle of edges. The mappings of a map name its node, and those of a
conditional its branches. -/
def IsConnected : Implementation → Prop
  | .graph block => block.Closed ∧ block.Acyclic
  | .map block => ∀ id ∈ mappedNodes block.inputMappings block.outputMappings, id = block.node.id
  | .conditional block =>
    ∀ id ∈ mappedNodes block.inputMappings block.outputMappings,
      ∃ node ∈ block.branches, node.id = id
  | .brick _ | .any => True

/-- The fault of the first check that the connections of an implementation fail. -/
inductive FailsFirst (component : ComponentId) : Implementation → ValidationFault → Prop
  | duplicateNode {block : Graph} {node : String} (h : RepeatsFirst (block.nodes.map (·.id)) node) :
    FailsFirst component (.graph block) (.duplicateNode component node)
  | unknownNode {block : Graph} {node : String} (hdistinct : (block.nodes.map (·.id)).Nodup)
    (h : StraysFirst block.endpoints (· ∈ block.nodes.map (·.id)) node) :
    FailsFirst component (.graph block) (.unknownNode component node)
  | cycle {block : Graph} (hclosed : block.Closed) (h : ¬ block.Acyclic) :
    FailsFirst component (.graph block) (.cycle component)
  | unmapped {block : MapBlock} {node : String}
    (h : StraysFirst (mappedNodes block.inputMappings block.outputMappings)
      (· = block.node.id) node) :
    FailsFirst component (.map block) (.unknownNode component node)
  | unbranched {block : Conditional} {node : String}
    (h : StraysFirst (mappedNodes block.inputMappings block.outputMappings)
      (fun id => ∃ node ∈ block.branches, node.id = id) node) :
    FailsFirst component (.conditional block) (.unknownNode component node)

end Implementation

namespace Component

/-- The component has an identifier, its ports of one direction have distinct names, and what it
connects is its own. -/
structure IsSound (component : Component) : Prop where
  identified : component.id ≠ .nil
  inputs : (component.inputs.map (·.name)).Nodup
  outputs : (component.outputs.map (·.name)).Nodup
  connected : component.implementation.IsConnected

/-- The fault of the first check that a component fails by itself. -/
inductive FailsFirst (component : Component) : ValidationFault → Prop
  | nilIdentifier (h : component.id = .nil) :
    FailsFirst component (.nilIdentifier component.name)
  | input {port : String} (hid : component.id ≠ .nil)
    (h : RepeatsFirst (component.inputs.map (·.name)) port) :
    FailsFirst component (.duplicatePort component.id .input port)
  | output {port : String} (hid : component.id ≠ .nil)
    (hinputs : (component.inputs.map (·.name)).Nodup)
    (h : RepeatsFirst (component.outputs.map (·.name)) port) :
    FailsFirst component (.duplicatePort component.id .output port)
  | implementation {cause : ValidationFault} (hid : component.id ≠ .nil)
    (hinputs : (component.inputs.map (·.name)).Nodup)
    (houtputs : (component.outputs.map (·.name)).Nodup)
    (h : component.implementation.FailsFirst component.id cause) : FailsFirst component cause

end Component

/-! ## The checks of one component -/

namespace Implementation

section Mappings

variable {names : List String} {test : String → Bool} {known : String → Prop}
variable (component : ComponentId) (htest : ∀ name, test name = true ↔ ¬ known name)

include htest

/-- The check that all names are known ones. -/
theorem unknownCheck_eq_ok :
    (match names.find? test with
      | some node => throw (.unknownNode component node)
      | none => return : Except ValidationFault Unit) = .ok () ↔ ∀ name ∈ names, known name := by
  have hnone : names.find? test = none ↔ ∀ name ∈ names, known name := by
    simp only [List.find?_eq_none, htest, not_not]
  rw [← hnone]
  cases names.find? test with
  | some node => simp [throw, throwThe, MonadExceptOf.throw]
  | none => simp [pure, Except.pure]

theorem unknownCheck_eq_error {cause : ValidationFault} :
    (match names.find? test with
      | some node => throw (.unknownNode component node)
      | none => return : Except ValidationFault Unit) = .error cause ↔
      ∃ node, StraysFirst names known node ∧ .unknownNode component node = cause := by
  simp only [← find?_eq_some_iff_straysFirst htest]
  cases names.find? test with
  | some node => simp [throw, throwThe, MonadExceptOf.throw]
  | none => simp [pure, Except.pure]

end Mappings

theorem isBranch_iff {block : Conditional} (id : String) :
    (!block.isBranch id) = true ↔ ¬ ∃ node ∈ block.branches, node.id = id := by
  simp [Conditional.isBranch]

theorem validateStructure_eq_ok {implementation : Implementation} {component : ComponentId} :
    implementation.validateStructure component = .ok () ↔ implementation.IsConnected := by
  cases implementation with
  | brick _ => simp [validateStructure, IsConnected, pure, Except.pure]
  | any => simp [validateStructure, IsConnected, pure, Except.pure]
  | graph block =>
    rw [validateStructure, IsConnected, Graph.validateStructure_eq_ok]
    exact and_congr_right fun hclosed => hclosed.isAcyclic_iff
  | map block => exact unknownCheck_eq_ok component (by simp)
  | conditional block => exact unknownCheck_eq_ok component isBranch_iff

end Implementation

/-- A graph is refused for its nodes before its connections, and for those before its circles. -/
theorem Graph.validateStructure_eq_error {block : Graph} {component : ComponentId}
    {cause : ValidationFault} :
    block.validateStructure component = .error cause ↔
      (∃ node, RepeatsFirst (block.nodes.map (·.id)) node ∧
        .duplicateNode component node = cause) ∨
      (block.nodes.map (·.id)).Nodup ∧
        (∃ node, StraysFirst block.endpoints (· ∈ block.nodes.map (·.id)) node ∧
          .unknownNode component node = cause) ∨
      block.Closed ∧ ¬ block.Acyclic ∧ .cycle component = cause := by
  have hstray : ∀ node,
      StraysFirst block.endpoints (· ∈ block.nodes.map (·.id)) node ↔
        (block.endpoints.find? fun id => !block.nodes.any (·.id = id)) = some node :=
    fun node => (find?_eq_some_iff_straysFirst (by simp)).symm
  rcases block.validateStructure_cases component with ⟨hclosed, heq⟩ | ⟨hopen, -⟩
  · obtain ⟨hrepeated, hknown⟩ := closed_iff.1 hclosed
    have hnone : (block.endpoints.find? fun id => !block.nodes.any (·.id = id)) = none := by
      simpa using hknown
    simp only [heq, hstray, ← firstRepeated?_nil_eq_some, hrepeated, hnone, hclosed,
      ← hclosed.isAcyclic_iff]
    by_cases hacyclic : block.isAcyclic = true <;> simp [hacyclic]
  · simp only [hopen, hstray, ← firstRepeated?_nil_eq_some, ← firstRepeated?_nil_eq_none]
    rw [closed_iff] at hopen
    unfold validateStructure
    cases hrepeated : firstRepeated? [] (block.nodes.map (·.id)) with
    | some node => simp [throw, throwThe, MonadExceptOf.throw, bind, Except.bind]
    | none =>
      cases hunknown : block.endpoints.find? fun id => !block.nodes.any (·.id = id) with
      | some node => simp [throw, throwThe, MonadExceptOf.throw, bind, Except.bind]
      | none => exact absurd ⟨hrepeated, by simpa using hunknown⟩ hopen

namespace Implementation

theorem validateStructure_eq_error {implementation : Implementation} {component : ComponentId}
    {cause : ValidationFault} :
    implementation.validateStructure component = .error cause ↔
      implementation.FailsFirst component cause := by
  cases implementation with
  | brick _ | any =>
    simp only [validateStructure, pure, Except.pure, reduceCtorEq, false_iff]
    intro h
    cases h
  | graph block =>
    rw [validateStructure, Graph.validateStructure_eq_error]
    constructor
    · rintro (⟨node, h, rfl⟩ | ⟨hdistinct, node, h, rfl⟩ | ⟨hclosed, h, rfl⟩)
      · exact .duplicateNode h
      · exact .unknownNode hdistinct h
      · exact .cycle hclosed h
    · intro h
      cases h with
      | duplicateNode h => exact .inl ⟨_, h, rfl⟩
      | unknownNode hdistinct h => exact .inr (.inl ⟨hdistinct, _, h, rfl⟩)
      | cycle hclosed h => exact .inr (.inr ⟨hclosed, h, rfl⟩)
  | map block =>
    have htest : ∀ id, decide (id ≠ block.node.id) = true ↔ ¬ id = block.node.id := by simp
    refine (unknownCheck_eq_error component htest).trans ⟨?_, ?_⟩
    · rintro ⟨node, h, rfl⟩
      exact .unmapped h
    · intro h
      cases h with
      | unmapped h => exact ⟨_, h, rfl⟩
  | conditional block =>
    refine (unknownCheck_eq_error component isBranch_iff).trans ⟨?_, ?_⟩
    · rintro ⟨node, h, rfl⟩
      exact .unbranched h
    · intro h
      cases h with
      | unbranched h => exact ⟨_, h, rfl⟩

end Implementation

namespace Component

theorem validatePorts_eq_error {id : ComponentId} {direction : Direction} {ports : List Port}
    {cause : ValidationFault} :
    validatePorts id direction ports = .error cause ↔
      ∃ port, RepeatsFirst (ports.map (·.name)) port ∧
        .duplicatePort id direction port = cause := by
  simp only [← firstRepeated?_nil_eq_some, validatePorts]
  cases firstRepeated? [] (ports.map (·.name)) with
  | some port => simp [throw, throwThe, MonadExceptOf.throw]
  | none => simp [pure, Except.pure]

/-- A component passes by itself exactly when it is sound. -/
theorem validateSelf_eq_ok_iff_isSound {component : Component} :
    component.validateSelf = .ok () ↔ component.IsSound := by
  have hid : component.id.isNil = false ↔ component.id ≠ .nil := decide_eq_false_iff_not
  rw [validateSelf_eq_ok, hid, Implementation.validateStructure_eq_ok]
  exact ⟨fun ⟨hid, hinputs, houtputs, h⟩ => ⟨hid, hinputs, houtputs, h⟩,
    fun ⟨hid, hinputs, houtputs, h⟩ => ⟨hid, hinputs, houtputs, h⟩⟩

/-- A component that does not pass by itself fails for the first of its checks that it fails. -/
theorem validateSelf_eq_error {component : Component} {cause : ValidationFault} :
    component.validateSelf = .error cause ↔ component.FailsFirst cause := by
  by_cases hid : component.id = .nil
  · have hnil : component.id.isNil = true := decide_eq_true hid
    have hself : component.validateSelf = .error (.nilIdentifier component.name) := by
      rw [validateSelf, if_pos hnil]
      rfl
    rw [hself, Except.error.injEq]
    constructor
    · rintro rfl
      exact .nilIdentifier hid
    · intro h
      cases h <;> first | rfl | contradiction
  · have hnil : component.id.isNil = false := decide_eq_false hid
    have hself : component.validateSelf =
        (validatePorts component.id .input component.inputs >>= fun _ =>
          validatePorts component.id .output component.outputs >>= fun _ =>
          component.implementation.validateStructure component.id) := by
      rw [validateSelf, hnil]
      rfl
    rw [hself]
    simp only [check_bind_eq_error, validatePorts_eq_error, validatePorts_eq_ok,
      Implementation.validateStructure_eq_error]
    constructor
    · rintro (⟨port, h, rfl⟩ | ⟨hinputs, ⟨port, h, rfl⟩ | ⟨houtputs, h⟩⟩)
      · exact .input hid h
      · exact .output hid hinputs h
      · exact .implementation hid hinputs houtputs h
    · intro h
      cases h with
      | nilIdentifier h => exact absurd h hid
      | input _ h => exact .inl ⟨_, h, rfl⟩
      | output _ hinputs h => exact .inr ⟨hinputs, .inl ⟨_, h, rfl⟩⟩
      | implementation _ hinputs houtputs h => exact .inr ⟨hinputs, .inr ⟨houtputs, h⟩⟩

end Component

/-! ## Pre-order -/

/-- The components of a tree in pre-order, each with the nodes that lead to it. -/
def Component.preorder (component : Component) : List (List String × Component) :=
  ([], component) :: component.children.attach.flatMap fun ⟨node, _⟩ =>
    match _ : node.component? with
    | some child => child.preorder.map fun place => (node.id :: place.1, place.2)
    | none => []
termination_by sizeOf component
decreasing_by exact sizeOf_child ‹_› ‹_›

/-- The components at and below a node in pre-order; none when the node holds a reference. -/
def Node.preorder (node : Node) : List (List String × Component) :=
  match node.component? with
  | some child => child.preorder.map fun place => (node.id :: place.1, place.2)
  | none => []

/-- A component comes before those at its nodes, and those come node by node. -/
theorem Component.preorder_eq (component : Component) :
    component.preorder = ([], component) :: component.children.flatMap Node.preorder := by
  have hnode : ∀ node : {node // node ∈ component.children},
      (match _ : node.val.component? with
        | some child => child.preorder.map fun place => (node.val.id :: place.1, place.2)
        | none => []) = node.val.preorder := by
    intro node
    rw [Node.preorder]
    split <;> rename_i hchild <;> rw [hchild]
  rw [Component.preorder]
  simp only [hnode]
  rw [List.flatMap_subtype fun _ _ => rfl, List.unattach_attach]

theorem Node.mem_preorder {node : Node} {place : List String × Component} :
    place ∈ node.preorder ↔
      ∃ child, node.component? = some child ∧
        ∃ path, (path, place.2) ∈ child.preorder ∧ node.id :: path = place.1 := by
  rw [Node.preorder]
  cases node.component? with
  | none => simp
  | some child => simp [Prod.ext_iff]

/-- The components in pre-order are those that stand in the tree. -/
theorem Component.exists_preorder_iff {component inner : Component} :
    (∃ path, (path, inner) ∈ component.preorder) ↔ component.Within inner := by
  induction component using Component.induction with
  | step component ih =>
    rw [preorder_eq, within_iff]
    constructor
    · rintro ⟨path, h⟩
      rcases List.mem_cons.1 h with h | h
      · exact .inl (Prod.mk.inj h).2
      · obtain ⟨node, hnode, h⟩ := List.mem_flatMap.1 h
        obtain ⟨child, hchild, below, hbelow, -⟩ := Node.mem_preorder.1 h
        have hhas : component.HasChild child := ⟨node, hnode, hchild⟩
        exact .inr ⟨child, hhas, (ih child hhas).1 ⟨below, hbelow⟩⟩
    · rintro (rfl | ⟨child, hhas, hinner⟩)
      · exact ⟨[], List.mem_cons_self⟩
      · obtain ⟨path, hpath⟩ := (ih child hhas).2 hinner
        obtain ⟨node, hnode, hchild⟩ := hhas
        refine ⟨node.id :: path, List.mem_cons_of_mem _ (List.mem_flatMap.2 ⟨node, hnode, ?_⟩)⟩
        exact Node.mem_preorder.2 ⟨child, hchild, path, hpath, rfl⟩

/-! ## Going through a tree -/

/-- The checks of a component by itself, with the place at which it stands. -/
def checkAt (place : List String × Component) : Except ValidationError Unit :=
  place.2.validateSelf.mapError fun cause => ⟨place.1, cause⟩

theorem Node.validate_eq_forM {node : Node}
    (h : ∀ child, node.component? = some child → child.validate = forM child.preorder checkAt) :
    node.validate = forM node.preorder checkAt := by
  obtain ⟨id, target⟩ := node
  cases target with
  | latest _ => rfl
  | pinned _ _ => rfl
  | inline component =>
    -- The node is put in front of an error where it arises, and not on its way out.
    have hplace : ∀ place : List String × Component,
        (checkAt place).mapError (Located.within id) = checkAt (id :: place.1, place.2) := by
      intro place
      unfold checkAt
      cases place.2.validateSelf <;> rfl
    rw [Node.validate, h component rfl, inside, mapError_forM]
    simp only [hplace]
    exact (List.forM_map).symm

/-- Validation goes through the components in pre-order, and puts the nodes that lead to a component
in front of its fault. -/
theorem Component.validate_eq_forM (component : Component) :
    component.validate = forM component.preorder checkAt := by
  induction component using Component.induction with
  | step component ih =>
    have hnodes : ∀ nodes ⊆ component.children,
        Node.validateAll nodes = forM (nodes.flatMap Node.preorder) checkAt := by
      intro nodes hsubset
      induction nodes with
      | nil => rfl
      | cons node nodes ihNodes =>
        obtain ⟨hnode, hrest⟩ := List.cons_subset.1 hsubset
        rw [Node.validateAll, List.flatMap_cons, List.forM_append, ihNodes hrest,
          Node.validate_eq_forM fun child hchild => ih child ⟨node, hnode, hchild⟩]
    rw [validate_eq, preorder_eq, List.forM_cons, hnodes _ (List.Subset.refl _)]
    rfl

/-! ## What validation finds -/

theorem checkAt_eq_ok {place : List String × Component} :
    checkAt place = .ok () ↔ place.2.IsSound := by
  rw [checkAt, mapError_eq_ok, Component.validateSelf_eq_ok_iff_isSound]

theorem checkAt_eq_error {place : List String × Component} {error : ValidationError} :
    checkAt place = .error error ↔ place.1 = error.path ∧ place.2.FailsFirst error.cause := by
  simp only [checkAt, mapError_eq_error, Component.validateSelf_eq_error]
  constructor
  · rintro ⟨cause, hcause, rfl⟩
    exact ⟨rfl, hcause⟩
  · rintro ⟨hpath, hcause⟩
    exact ⟨error.cause, hcause, by rw [hpath]⟩

/-- **Validation is exact, and tells the first violation.** A tree passes exactly when every
component that stands in it is sound. And it is refused with an error exactly when the place of the
error is that of a component which, in pre-order, comes behind sound ones only, and its cause is that
of the first check which that component fails. -/
theorem Component.validate_finds_first (component : Component) :
    (component.validate = .ok () ↔ ∀ inner, component.Within inner → inner.IsSound) ∧
      ∀ error, component.validate = .error error ↔
        ∃ before inner after, component.preorder = before ++ (error.path, inner) :: after ∧
          (∀ place ∈ before, place.2.IsSound) ∧ inner.FailsFirst error.cause := by
  rw [validate_eq_forM]
  constructor
  · rw [forM_eq_ok]
    constructor
    · intro h inner hinner
      obtain ⟨path, hpath⟩ := exists_preorder_iff.2 hinner
      exact checkAt_eq_ok.1 (h _ hpath)
    · intro h place hplace
      exact checkAt_eq_ok.2 (h place.2 (exists_preorder_iff.1 ⟨place.1, hplace⟩))
  · intro error
    rw [forM_eq_error]
    simp only [checkAt_eq_ok, checkAt_eq_error]
    constructor
    · rintro ⟨before, ⟨path, inner⟩, after, hsplit, hbefore, rfl, hcause⟩
      exact ⟨before, inner, after, hsplit, hbefore, hcause⟩
    · rintro ⟨before, inner, after, hsplit, hbefore, hcause⟩
      exact ⟨before, (error.path, inner), after, hsplit, hbefore, rfl, hcause⟩

/-- A reference is passed over, and what is wrong further down counts before what comes later. -/
example :
    let below := Component.volumeGraph 2 [] [] ⟨[⟨"c", .inline (.volumeBrick 0)⟩], [], [], []⟩
    let nodes : List Node :=
      [⟨"a", .latest .nil⟩, ⟨"b", .inline below⟩,
        ⟨"d", .inline (.volumeGraph 3 ["in", "in"] [] .empty)⟩]
    (Component.volumeGraph 1 [] [] ⟨nodes, [], [], []⟩).validate =
      .error ⟨["b", "c"], .nilIdentifier "brick"⟩ := by
  decide

end Pipeline
