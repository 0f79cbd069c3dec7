/-
Shared templates: what becomes of a component that stands at several places.

Each place has its own scopes and gives a template of its own, all of them under
one name, of which the first is kept. Whether that is the right one for all of
the places is a question about scopes only: it is, exactly when the scopes at
each place bind the same to what the template reads. Nothing in lowering asks for
that. Two nodes that hold the same brick, each with a volume of its own, both run
with the volume of the first (`Component.twoDisks_repeats_differ`).
-/
import Pipeline.Proofs.CallGraph
import Pipeline.Proofs.ScopeReads

set_option autoImplicit false

namespace Pipeline

open Manifest (Template)

namespace Visit

/-- The template of the visit is among those given. -/
def IsKept (visit : Visit) (settings : Settings) (templates : List Template) : Prop :=
  ∃ template ∈ templates, visit.template settings = .ok template

/-- Both visits are to the same component, under scopes that bind the same to what its template
reads. -/
def Alike (visit other : Visit) : Prop :=
  visit.component = other.component ∧ visit.component.ReadsAlike visit.scopes other.scopes

/-- Two visits to the same component have the same template exactly when they are alike. -/
theorem template_eq_iff {visit other : Visit} {settings : Settings} {left right : Template}
    (hsame : visit.component = other.component) (hleft : visit.template settings = .ok left)
    (hright : other.template settings = .ok right) : left = right ↔ visit.Alike other := by
  obtain ⟨component, scopes⟩ := visit
  obtain ⟨_, scopes'⟩ := other
  obtain rfl := hsame
  rw [Component.template_eq_iff hleft hright]
  exact (and_iff_right rfl).symm

end Visit

namespace Component

section

variable {root : Component} {settings : Settings} {scopes : Scopes} {repeats : List Template}

/-- Two visits whose templates have the same name are to the same component. -/
theorem component_eq_of_name {visit other : Visit} {left right : Template}
    (hids : root.FaithfulIds) (hvisit : Visit.Reaches ⟨root, scopes⟩ visit)
    (hother : Visit.Reaches ⟨root, scopes⟩ other) (hleft : visit.template settings = .ok left)
    (hright : other.template settings = .ok right) (hname : left.name = right.name) :
    visit.component = other.component := by
  rw [template_name hleft, template_name hright] at hname
  exact hids _ _ hvisit.within hother.within (ComponentId.text_injective hname)

/-- All repeats of a template are equal exactly when all visits to one component are alike. -/
theorem repeats_eq_iff (hids : root.FaithfulIds)
    (h : Visit.allTemplates ⟨root, scopes⟩ settings = .ok repeats) :
    (∀ left ∈ repeats, ∀ right ∈ repeats, left.name = right.name → left = right) ↔
      ∀ visit other, Visit.Reaches ⟨root, scopes⟩ visit → Visit.Reaches ⟨root, scopes⟩ other →
        visit.component = other.component → visit.Alike other := by
  constructor
  -- Every visit shows in a template, and the templates of one component have one name.
  · intro hequal visit other hvisit hother hsame
    obtain ⟨left, hleft⟩ := hvisit.exists_template h
    obtain ⟨right, hright⟩ := hother.exists_template h
    have hname : left.name = right.name := by
      rw [template_name hleft, template_name hright, hsame]
    rw [← Visit.template_eq_iff hsame hleft hright]
    exact hequal left ((Visit.mem_allTemplates h).2 ⟨visit, hvisit, hleft⟩) right
      ((Visit.mem_allTemplates h).2 ⟨other, hother, hright⟩) hname
  -- Every template comes from a visit, and templates of one name from visits to one component.
  · intro halike left hleft right hright hname
    obtain ⟨visit, hvisit, hleft⟩ := (Visit.mem_allTemplates h).1 hleft
    obtain ⟨other, hother, hright⟩ := (Visit.mem_allTemplates h).1 hright
    have hsame := component_eq_of_name hids hvisit hother hleft hright hname
    exact (Visit.template_eq_iff hsame hleft hright).2 (halike visit other hvisit hother hsame)

/-- The template that is kept for a visit is the first of its name. It is that of another visit to
the same component, and the visit's own exactly when the two are alike. -/
theorem exists_kept (hids : root.FaithfulIds)
    (h : Visit.allTemplates ⟨root, scopes⟩ settings = .ok repeats) {visit : Visit}
    (hvisit : Visit.Reaches ⟨root, scopes⟩ visit) :
    ∃ first kept, Visit.Reaches ⟨root, scopes⟩ first ∧ first.component = visit.component ∧
      first.template settings = .ok kept ∧
      Template.ofName? repeats visit.component.id.text = some kept ∧
      (visit.IsKept settings (Template.distinct repeats) ↔ first.Alike visit) := by
  obtain ⟨own, hown⟩ := hvisit.exists_template h
  have hmem : own ∈ repeats := (Visit.mem_allTemplates h).2 ⟨visit, hvisit, hown⟩
  obtain ⟨kept, hkept⟩ := Template.exists_ofName? hmem
  have hname : kept.name = own.name := Template.name_of_ofName? hkept
  obtain ⟨first, hfirst, htemplate⟩ :=
    (Visit.mem_allTemplates h).1 (Template.mem_of_ofName? hkept)
  have hsame := component_eq_of_name hids hfirst hvisit htemplate hown hname
  refine ⟨first, kept, hfirst, hsame, htemplate, template_name hown ▸ hkept, ?_⟩
  -- The visit has its own template kept only if that is the first one itself.
  rw [← Visit.template_eq_iff hsame htemplate hown]
  constructor
  · rintro ⟨template, hdistinct, hvisited⟩
    obtain rfl : own = template := Except.ok.inj (hown.symm.trans hvisited)
    rw [Template.mem_distinct, hkept] at hdistinct
    exact Option.some.inj hdistinct
  · rintro rfl
    exact ⟨kept, Template.mem_distinct.2 hkept, hown⟩

/-- **What keeping the first template of every name comes to.** Of the templates that a tree gives
before each name is kept once,
* two of the same component are equal exactly when their visits are alike;
* all those of one name are equal exactly when all visits to one component are alike;
* the one that is kept for a visit is the first of its name, and is the visit's own, under the
  scopes that were handed down to it, exactly when the visit is alike to the one it was kept from.
-/
theorem repeats_shared_iff_alike (hids : root.FaithfulIds)
    (hok : root.templatesWithRepeats settings scopes = .ok repeats) :
    root.templates settings scopes = .ok (Template.distinct repeats) ∧
      (∀ visit other, Visit.Reaches ⟨root, scopes⟩ visit → Visit.Reaches ⟨root, scopes⟩ other →
        visit.component = other.component →
        ∃ left ∈ repeats, ∃ right ∈ repeats, visit.template settings = .ok left ∧
          other.template settings = .ok right ∧ left.name = right.name ∧
          (left = right ↔ visit.Alike other)) ∧
      ((∀ left ∈ repeats, ∀ right ∈ repeats, left.name = right.name → left = right) ↔
        ∀ visit other, Visit.Reaches ⟨root, scopes⟩ visit → Visit.Reaches ⟨root, scopes⟩ other →
          visit.component = other.component → visit.Alike other) ∧
      ∀ visit, Visit.Reaches ⟨root, scopes⟩ visit →
        ∃ first kept, Visit.Reaches ⟨root, scopes⟩ first ∧ first.component = visit.component ∧
          first.template settings = .ok kept ∧
          Template.ofName? repeats visit.component.id.text = some kept ∧
          (visit.IsKept settings (Template.distinct repeats) ↔ first.Alike visit) := by
  have h := (templatesWithRepeats_eq_ok.1 hok).2
  refine ⟨map_eq_ok.2 ⟨repeats, hok, rfl⟩, ?_, repeats_eq_iff hids h,
    fun visit hvisit => exists_kept hids h hvisit⟩
  · intro visit other hvisit hother hsame
    obtain ⟨left, hleft⟩ := hvisit.exists_template h
    obtain ⟨right, hright⟩ := hother.exists_template h
    refine ⟨left, (Visit.mem_allTemplates h).2 ⟨visit, hvisit, hleft⟩, right,
      (Visit.mem_allTemplates h).2 ⟨other, hother, hright⟩, hleft, hright, ?_,
      Visit.template_eq_iff hsame hleft hright⟩
    rw [template_name hleft, template_name hright, hsame]

end

/-! ## Two disks and one -/

/-- With one volume for all places, the five templates come down to three, and every visit to the
brick is alike. -/
theorem sharedDisk_visits_alike :
    ∃ repeats, sharedDisk.templatesWithRepeats .default sharedDiskScopes = .ok repeats ∧
      repeats.length = 5 ∧ (Template.distinct repeats).length = 3 ∧
      ∀ visit other, Visit.Reaches ⟨sharedDisk, sharedDiskScopes⟩ visit →
        Visit.Reaches ⟨sharedDisk, sharedDiskScopes⟩ other →
        visit.component = other.component → visit.Alike other := by
  have hequal : ∃ repeats, sharedDisk.templatesWithRepeats .default sharedDiskScopes = .ok repeats ∧
      repeats.length = 5 ∧ (Template.distinct repeats).length = 3 ∧
      ∀ left ∈ repeats, ∀ right ∈ repeats, left.name = right.name → left = right := by
    rw [← exists_ok_iff]
    decide
  obtain ⟨repeats, hok, hlength, hdistinct, hequal⟩ := hequal
  obtain ⟨-, -, halike, -⟩ := repeats_shared_iff_alike sharedDisk_faithfulIds hok
  exact ⟨repeats, hok, hlength, hdistinct, halike.1 hequal⟩

/-- Each node has a volume of its own. -/
def twoDisksScopes : Scopes := ⟨.empty, KeyMap.ofList [("left", "v1"), ("right", "v2")]⟩

/-- The brick at the second node is lowered with the second volume, under a name for which the
template with the first volume is kept. -/
theorem twoDisks_repeats_differ :
    twoDisks.FaithfulIds ∧
      ∃ repeats, twoDisks.templatesWithRepeats .default twoDisksScopes = .ok repeats ∧
        ∃ left ∈ repeats, ∃ right ∈ repeats, left.name = right.name ∧ left ≠ right ∧
          (volumeBrick 1).template .default ⟨.empty, KeyMap.ofList [("in", "v1")]⟩ = .ok left ∧
          (volumeBrick 1).template .default ⟨.empty, KeyMap.ofList [("in", "v2")]⟩ = .ok right ∧
          right ∉ Template.distinct repeats := by
  refine ⟨twoDisks_faithfulIds, ?_⟩
  rw [← exists_ok_iff]
  decide

end Component

end Pipeline
