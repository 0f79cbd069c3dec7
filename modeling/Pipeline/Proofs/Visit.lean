/-
Visits: the components of a tree, each with the scopes under which it is lowered.

Lowering goes down the tree and narrows the scopes on the way. A component that
stands at several places is visited once for each of them, under scopes that may
differ. The templates of a tree are nothing but the templates of its visits
(`Visit.mem_allTemplates`), and a tree is lowered only if every visit that it
leads to is (`Visit.exists_template`). So whatever is said about all templates of
a tree is said about one visit, and then about a step from a visit to the next.
-/
import Pipeline.Proofs.Composite

set_option autoImplicit false

namespace Pipeline

open Manifest (Template)

/-- A component and the scopes under which it is lowered. -/
structure Visit where
  component : Component
  scopes : Scopes

namespace Visit

/-- The template of the component that is visited. -/
def template (visit : Visit) (settings : Settings) : Lowered Template :=
  visit.component.template settings visit.scopes

/-- The templates of the component that is visited and of all below it. -/
def allTemplates (visit : Visit) (settings : Settings) : Lowered (List Template) :=
  visit.component.allTemplates settings visit.scopes

/-- A composite hands down narrower scopes to the child at a node, by the bindings of a claimant. -/
def HandsTo (visit : Visit) (claim : String × Node) (next : Visit) : Prop :=
  claim.2.component? = some next.component ∧
    visit.component.wiring.narrow visit.scopes claim.1 next.component = .ok next.scopes

/-- One visit leads to another one at a child. -/
def Leads (visit next : Visit) : Prop :=
  ∃ claim ∈ visit.component.claimants, visit.HandsTo claim next

/-- One visit leads to another one somewhere below, or is that one. -/
def Reaches (visit inner : Visit) : Prop := Relation.ReflTransGen Leads visit inner

theorem Leads.hasChild {visit next : Visit} (h : visit.Leads next) :
    visit.component.HasChild next.component := by
  obtain ⟨⟨claimant, node⟩, hclaim, hchild, -⟩ := h
  exact Component.hasChild_of_claimant hclaim hchild

theorem Reaches.within {visit inner : Visit} (h : visit.Reaches inner) :
    visit.component.Within inner.component := by
  induction h with
  | refl => exact Component.Within.refl _
  | tail _ hleads ih => exact ih.child hleads.hasChild

/-- What a visit leads to is reached at once or by way of one of the next visits. -/
theorem reaches_iff {visit inner : Visit} :
    visit.Reaches inner ↔ inner = visit ∨ ∃ next, visit.Leads next ∧ next.Reaches inner := by
  rw [Reaches, Relation.ReflTransGen.cases_head_iff, eq_comm]
  rfl

/-! ## The templates of a visit -/

/-- Below a node stand the templates of the visit that is handed the scopes there. -/
theorem templates_eq_ok {visit : Visit} {claim : String × Node} {settings : Settings}
    {templates : List Template} :
    claim.2.templates settings (visit.component.wiring.narrow visit.scopes claim.1) =
        .ok templates ↔
      ∃ next, visit.HandsTo claim next ∧ next.allTemplates settings = .ok templates := by
  cases hchild : claim.2.component? with
  | none =>
    rw [Node.templates_of_reference settings _ hchild]
    simp [HandsTo, hchild, fault]
  | some child =>
    rw [Node.templates_of_component settings _ hchild, bind_eq_ok]
    constructor
    · rintro ⟨scopes, hscopes, htemplates⟩
      exact ⟨⟨child, scopes⟩, ⟨hchild, hscopes⟩, inside_eq_ok.1 htemplates⟩
    · rintro ⟨⟨_, scopes⟩, ⟨hnext, hscopes⟩, htemplates⟩
      obtain rfl := Option.some.inj (hchild.symm.trans hnext)
      exact ⟨scopes, hscopes, inside_eq_ok.2 htemplates⟩

/-- A visit contributes its own template and those of the visits that it leads to. -/
theorem allTemplates_eq_ok {visit : Visit} {settings : Settings} {templates : List Template}
    (h : visit.allTemplates settings = .ok templates) :
    ∃ (own : Template) (below : List (List Template)),
      visit.template settings = .ok own ∧ templates = own :: below.flatten ∧
      (∀ result ∈ below, ∃ next, visit.Leads next ∧ next.allTemplates settings = .ok result) ∧
      ∀ claim ∈ visit.component.claimants,
        ∃ next, visit.HandsTo claim next ∧
          ∃ result ∈ below, next.allTemplates settings = .ok result := by
  rw [allTemplates, Component.allTemplates_eq] at h
  obtain ⟨own, hown, h⟩ := bind_eq_ok.1 h
  obtain ⟨below, hbelow, h⟩ := bind_eq_ok.1 h
  refine ⟨own, below, hown, (pure_eq_ok.1 h).symm, fun result hresult => ?_, fun claim hclaim => ?_⟩
  · obtain ⟨claim, hclaim, htemplates⟩ := (mem_results_iff hbelow).1 hresult
    obtain ⟨next, hnext, hall⟩ := templates_eq_ok.1 htemplates
    exact ⟨next, ⟨claim, hclaim, hnext⟩, hall⟩
  · obtain ⟨result, hresult, htemplates⟩ := exists_result hbelow hclaim
    obtain ⟨next, hnext, hall⟩ := templates_eq_ok.1 htemplates
    exact ⟨next, hnext, result, hresult, hall⟩

/-- The same node is handed the same scopes. -/
theorem HandsTo.unique {visit next other : Visit} {claim : String × Node}
    (hnext : visit.HandsTo claim next) (hother : visit.HandsTo claim other) : next = other := by
  obtain ⟨component, scopes⟩ := next
  obtain ⟨component', scopes'⟩ := other
  obtain rfl : component = component' := Option.some.inj (hnext.1.symm.trans hother.1)
  obtain rfl : scopes = scopes' := Except.ok.inj (hnext.2.symm.trans hother.2)
  rfl

/-- When a tree is lowered, so is the tree at every next visit. -/
theorem Leads.exists_allTemplates {visit next : Visit} {settings : Settings}
    {templates : List Template} (hleads : visit.Leads next)
    (h : visit.allTemplates settings = .ok templates) :
    ∃ result, next.allTemplates settings = .ok result := by
  obtain ⟨own, below, -, -, -, hclaims⟩ := allTemplates_eq_ok h
  obtain ⟨claim, hclaim, hnext⟩ := hleads
  obtain ⟨other, hother, result, -, hresult⟩ := hclaims claim hclaim
  obtain rfl := hnext.unique hother
  exact ⟨result, hresult⟩

/-- When a tree is lowered, so is the tree at every visit. -/
theorem Reaches.exists_allTemplates {visit inner : Visit} {settings : Settings}
    {templates : List Template} (hreaches : visit.Reaches inner)
    (h : visit.allTemplates settings = .ok templates) :
    ∃ result, inner.allTemplates settings = .ok result := by
  induction hreaches with
  | refl => exact ⟨templates, h⟩
  | tail _ hleads ih =>
    obtain ⟨result, hresult⟩ := ih
    exact hleads.exists_allTemplates hresult

/-- When a tree is lowered, so is the component at every visit. -/
theorem Reaches.exists_template {visit inner : Visit} {settings : Settings}
    {templates : List Template} (hreaches : visit.Reaches inner)
    (h : visit.allTemplates settings = .ok templates) :
    ∃ template, inner.template settings = .ok template := by
  obtain ⟨result, hresult⟩ := hreaches.exists_allTemplates h
  obtain ⟨own, _, hown, _⟩ := allTemplates_eq_ok hresult
  exact ⟨own, hown⟩

/-- When a tree is lowered, every component in it is visited. -/
theorem exists_reaches {visit : Visit} {settings : Settings} {templates : List Template}
    (h : visit.allTemplates settings = .ok templates) {inner : Component}
    (hinner : visit.component.Within inner) :
    ∃ scopes, visit.Reaches ⟨inner, scopes⟩ := by
  -- On the way down to the component, each parent is visited, and was lowered with its children.
  induction hinner with
  | refl => exact ⟨visit.scopes, .refl⟩
  | @tail parent child _ hchild ih =>
    obtain ⟨scopes, hreaches⟩ := ih
    obtain ⟨result, hresult⟩ := hreaches.exists_allTemplates h
    obtain ⟨_, _, -, -, -, hclaims⟩ := allTemplates_eq_ok hresult
    obtain ⟨claimant, node, hclaim, hnode⟩ := hchild.exists_claimant
    obtain ⟨⟨component, narrowed⟩, hnext, -⟩ := hclaims (claimant, node) hclaim
    obtain rfl : component = child := Option.some.inj (hnext.1.symm.trans hnode)
    exact ⟨narrowed, hreaches.tail ⟨_, hclaim, hnext⟩⟩

/-- The templates of a tree are the templates of its visits. -/
theorem mem_allTemplates {visit : Visit} {settings : Settings} {templates : List Template}
    (h : visit.allTemplates settings = .ok templates) {template : Template} :
    template ∈ templates ↔
      ∃ inner, visit.Reaches inner ∧ inner.template settings = .ok template := by
  obtain ⟨component, scopes⟩ := visit
  induction component using Component.induction generalizing scopes templates with
  | step component ih =>
    obtain ⟨own, below, hown, rfl, hbelow, hclaims⟩ := allTemplates_eq_ok h
    rw [List.mem_cons, List.mem_flatten]
    constructor
    · rintro (rfl | ⟨result, hresult, hmem⟩)
      · exact ⟨_, .refl, hown⟩
      -- Each part of what stands below is the result of a next visit.
      · obtain ⟨next, hleads, hall⟩ := hbelow result hresult
        obtain ⟨inner, hreaches, hinner⟩ := (ih _ hleads.hasChild next.scopes hall).1 hmem
        exact ⟨inner, reaches_iff.2 (.inr ⟨next, hleads, hreaches⟩), hinner⟩
    · rintro ⟨inner, hreaches, hinner⟩
      rcases reaches_iff.1 hreaches with rfl | ⟨next, ⟨claim, hclaim, hnext⟩, hreaches⟩
      · exact .inl (Except.ok.inj (hinner.symm.trans hown))
      -- The next visit on the way is the one that was lowered for its node.
      · obtain ⟨other, hother, result, hresult, hall⟩ := hclaims claim hclaim
        obtain rfl := hnext.unique hother
        have hleads : Leads ⟨component, scopes⟩ next := ⟨claim, hclaim, hnext⟩
        refine .inr ⟨result, hresult, ?_⟩
        exact (ih _ hleads.hasChild next.scopes hall).2 ⟨inner, hreaches, hinner⟩

end Visit

end Pipeline
