/-
The call graph of a tree: its templates call one another, and none ever comes
back to itself.

Each name is kept once, so a child whose template was dropped is called by the
name of another template. That name still is there, and where equal identifiers
denote equal components it still denotes the child. Following calls is therefore
following the tree downwards, where components become smaller at every step: a
template that could reach itself would belong to a component smaller than itself.
-/
import Pipeline.Proofs.DistinctTemplates
import Pipeline.Proofs.Identifier
import Pipeline.Proofs.TaskCalls
import Pipeline.Proofs.Visit

set_option autoImplicit false

namespace Pipeline

open Manifest (Template)

/-! ## Trees in which identifiers identify -/

/-- Equal identifiers denote equal components, wherever they stand in the tree. -/
def Component.FaithfulIds (root : Component) : Prop :=
  ∀ left right : Component, root.Within left → root.Within right → left.id = right.id →
    left = right

/-- Whatever is closed under children contains the whole tree. -/
theorem Component.FaithfulIds.of_members {root : Component} {members : List Component}
    (hroot : root ∈ members)
    (hclosed : (members.flatMap fun member => member.children.filterMap Node.component?) ⊆ members)
    (hdistinct : (members.map Component.id).Nodup) : root.FaithfulIds := by
  have hall : ∀ inner, root.Within inner → inner ∈ members := by
    intro inner hinner
    induction hinner with
    | refl => exact hroot
    | @tail parent child _ hchild ih =>
      obtain ⟨node, hnode, hchild⟩ := hchild
      exact hclosed (List.mem_flatMap.2 ⟨parent, ih, List.mem_filterMap.2 ⟨node, hnode, hchild⟩⟩)
  intro left right hleft hright hid
  exact List.inj_on_of_nodup_map hdistinct (hall left hleft) (hall right hright) hid

/-! ## What a name stands for -/

/-- The component stands in the tree, and the template is called by its identifier. -/
structure Component.Denotes (root : Component) (template : Template) (inner : Component) : Prop where
  within : root.Within inner
  name : template.name = inner.id.text

theorem Component.Denotes.unique {root left right : Component} {template : Template}
    (hids : root.FaithfulIds) (hleft : root.Denotes template left)
    (hright : root.Denotes template right) : left = right := by
  have htext : left.id.text = right.id.text := by rw [← hleft.name, hright.name]
  exact hids left right hleft.within hright.within (ComponentId.text_injective htext)

/-- One of the templates has a task that calls another one of them. -/
def Manifest.Template.CallsIn (templates : List Template) (caller callee : Template) : Prop :=
  caller ∈ templates ∧ callee ∈ templates ∧ callee.name ∈ caller.calls

namespace Component

variable {root : Component} {settings : Settings} {scopes : Scopes}
variable {repeats templates : List Template}

/-- A tree that is lowered is lowered as one visit, which leads to all others. -/
theorem templatesWithRepeats_eq_ok :
    root.templatesWithRepeats settings scopes = .ok repeats ↔
      root.validate = .ok () ∧ Visit.allTemplates ⟨root, scopes⟩ settings = .ok repeats := by
  rw [templatesWithRepeats, bind_eq_ok]
  constructor
  · rintro ⟨⟨⟩, hvalid, h⟩
    exact ⟨mapError_eq_ok.1 hvalid, inside_eq_ok.1 h⟩
  · rintro ⟨hvalid, h⟩
    exact ⟨(), mapError_eq_ok.2 hvalid, inside_eq_ok.2 h⟩

theorem templates_eq_ok (h : root.templates settings scopes = .ok templates) :
    ∃ repeats, Visit.allTemplates ⟨root, scopes⟩ settings = .ok repeats ∧
      templates = Template.distinct repeats := by
  obtain ⟨repeats, hrepeats, hdistinct⟩ := map_eq_ok.1 h
  exact ⟨repeats, (templatesWithRepeats_eq_ok.1 hrepeats).2, hdistinct.symm⟩

/-- Only a valid tree is lowered. -/
theorem valid_of_templates (h : root.templates settings scopes = .ok templates) :
    root.validate = .ok () := by
  obtain ⟨repeats, hrepeats, -⟩ := map_eq_ok.1 h
  exact (templatesWithRepeats_eq_ok.1 hrepeats).1

/-- Each of the templates is that of a visit. -/
theorem exists_visit_of_mem (h : root.templates settings scopes = .ok templates)
    {template : Template} (hmem : template ∈ templates) :
    ∃ visit, Visit.Reaches ⟨root, scopes⟩ visit ∧ visit.template settings = .ok template := by
  obtain ⟨repeats, hrepeats, rfl⟩ := templates_eq_ok h
  exact (Visit.mem_allTemplates hrepeats).1 (Template.mem_of_mem_distinct hmem)

/-- The names of all templates are the identifiers of all components. -/
theorem mem_names_iff (h : Visit.allTemplates ⟨root, scopes⟩ settings = .ok repeats)
    {name : String} :
    name ∈ repeats.map Template.name ↔ ∃ inner, root.Within inner ∧ inner.id.text = name := by
  rw [List.mem_map]
  constructor
  · rintro ⟨template, hmem, rfl⟩
    obtain ⟨visit, hreaches, htemplate⟩ := (Visit.mem_allTemplates h).1 hmem
    exact ⟨visit.component, hreaches.within, (template_name htemplate).symm⟩
  · rintro ⟨inner, hinner, rfl⟩
    obtain ⟨narrowed, hreaches⟩ := Visit.exists_reaches h hinner
    obtain ⟨template, htemplate⟩ := hreaches.exists_template h
    exact ⟨template, (Visit.mem_allTemplates h).2 ⟨_, hreaches, htemplate⟩,
      template_name htemplate⟩

/-- Every template is that of a component in the tree, whose children it calls. -/
theorem exists_denotes (h : Visit.allTemplates ⟨root, scopes⟩ settings = .ok repeats)
    {template : Template} (hmem : template ∈ repeats) :
    ∃ inner, root.Denotes template inner ∧
      ∀ name ∈ template.calls, ∃ child, inner.HasChild child ∧ child.id.text = name := by
  obtain ⟨visit, hreaches, htemplate⟩ := (Visit.mem_allTemplates h).1 hmem
  exact ⟨visit.component, ⟨hreaches.within, template_name htemplate⟩,
    fun name hname => (mem_calls_iff htemplate).1 hname⟩

/-! ## Following calls -/

/-- A call leads from a component to a child. -/
theorem hasChild_of_callsIn (hids : root.FaithfulIds)
    (h : Visit.allTemplates ⟨root, scopes⟩ settings = .ok repeats) {caller callee : Template}
    {inner : Component} (hcalls : Template.CallsIn (Template.distinct repeats) caller callee)
    (hinner : root.Denotes caller inner) :
    ∃ child, root.Denotes callee child ∧ inner.HasChild child := by
  obtain ⟨hcaller, -, hname⟩ := hcalls
  -- The template that is called may come from another place; its name is all that counts.
  obtain ⟨denoted, hdenoted, hcallees⟩ := exists_denotes h (Template.mem_of_mem_distinct hcaller)
  obtain rfl := hdenoted.unique hids hinner
  obtain ⟨child, hchild, htext⟩ := hcallees callee.name hname
  exact ⟨child, ⟨hinner.within.child hchild, htext.symm⟩, hchild⟩

/-- Any number of calls lead strictly downwards in the tree. -/
theorem sizeOf_lt_of_calls (hids : root.FaithfulIds)
    (h : Visit.allTemplates ⟨root, scopes⟩ settings = .ok repeats) {caller callee : Template}
    (hcalls : Relation.TransGen (Template.CallsIn (Template.distinct repeats)) caller callee)
    {inner : Component} (hinner : root.Denotes caller inner) :
    ∃ below, root.Denotes callee below ∧ sizeOf below < sizeOf inner := by
  induction hcalls with
  | single hcall =>
    obtain ⟨child, hdenotes, hchild⟩ := hasChild_of_callsIn hids h hcall hinner
    exact ⟨child, hdenotes, hchild.sizeOf_lt⟩
  | tail _ hcall ih =>
    obtain ⟨below, hbelow, hlt⟩ := ih
    obtain ⟨child, hdenotes, hchild⟩ := hasChild_of_callsIn hids h hcall hbelow
    exact ⟨child, hdenotes, Nat.lt_trans hchild.sizeOf_lt hlt⟩

/-- No template calls itself, be it directly or through other ones. -/
theorem not_calls_self (hids : root.FaithfulIds)
    (h : Visit.allTemplates ⟨root, scopes⟩ settings = .ok repeats) (template : Template) :
    ¬ Relation.TransGen (Template.CallsIn (Template.distinct repeats)) template template := by
  intro hcalls
  have hmem : template ∈ Template.distinct repeats := by
    rcases Relation.TransGen.head'_iff.1 hcalls with ⟨_, ⟨hmem, -, -⟩, -⟩
    exact hmem
  -- The template would denote a component that is smaller than the one it denotes.
  obtain ⟨inner, hinner, -⟩ := exists_denotes h (Template.mem_of_mem_distinct hmem)
  obtain ⟨below, hbelow, hlt⟩ := sizeOf_lt_of_calls hids h hcalls hinner
  obtain rfl := hbelow.unique hids hinner
  exact Nat.lt_irrefl _ hlt

/-- What a template calls is there. -/
theorem calls_closed (h : Visit.allTemplates ⟨root, scopes⟩ settings = .ok repeats)
    {template : Template} (hmem : template ∈ repeats) {name : String}
    (hname : name ∈ template.calls) : name ∈ repeats.map Template.name := by
  obtain ⟨inner, hinner, hcallees⟩ := exists_denotes h hmem
  obtain ⟨child, hchild, htext⟩ := hcallees name hname
  exact (mem_names_iff h).2 ⟨child, hinner.within.child hchild, htext⟩

/-- **The templates of a tree form a call graph without cycles.** The first one is that of the root,
the names are the identifiers of the components of the tree and each of them stands once, every
call names one of the templates, and no template calls itself, be it directly or through others. -/
theorem templates_form_call_graph (hids : root.FaithfulIds)
    (hok : root.templates settings scopes = .ok templates) :
    templates.head?.map Template.name = some root.id.text ∧
      (templates.map Template.name).Nodup ∧
      (∀ name : String, name ∈ templates.map Template.name ↔
        ∃ inner, root.Within inner ∧ inner.id.text = name) ∧
      (∀ template ∈ templates, ∀ dag, template.dag = some dag → ∀ task ∈ dag.tasks,
        task.template ∈ templates.map Template.name) ∧
      ∀ template, ¬ Relation.TransGen (Template.CallsIn templates) template template := by
  obtain ⟨repeats, hrepeats, rfl⟩ := templates_eq_ok hok
  refine ⟨?_, Template.nodup_names_distinct repeats, fun name => ?_, ?_,
    not_calls_self hids hrepeats⟩
  -- The template of the root comes first, and what comes first is never dropped.
  · obtain ⟨own, below, hown, rfl, -⟩ := Visit.allTemplates_eq_ok hrepeats
    rw [Template.distinct_cons, List.head?_cons, Option.map_some, template_name hown]
  · rw [Template.mem_names_distinct, mem_names_iff hrepeats]
  -- A template that is called may have been dropped, but not its name.
  · intro template hmem dag hdag task htask
    have hcall : task.template ∈ template.calls := by
      rw [Template.calls, hdag]
      exact List.mem_map_of_mem htask
    rw [Template.mem_names_distinct]
    exact calls_closed hrepeats (Template.mem_of_mem_distinct hmem) hcall

/-! ## A brick that stands at several places -/

/-- Two nodes with the same brick, each with a volume of its own. -/
def twoDisks : Component :=
  let nodes : List Node := [⟨"a", .inline (volumeBrick 1)⟩, ⟨"b", .inline (volumeBrick 1)⟩]
  volumeGraph 2 ["left", "right"] []
    ⟨nodes, [], [⟨"left", ⟨"a", "in"⟩⟩, ⟨"right", ⟨"b", "in"⟩⟩], []⟩

/-- A node with that brick and one with the two others, all with the same volume. -/
def sharedDisk : Component :=
  let nodes : List Node := [⟨"one", .inline (volumeBrick 1)⟩, ⟨"two", .inline twoDisks⟩]
  volumeGraph 3 ["disk"] []
    ⟨nodes, [],
      [⟨"disk", ⟨"one", "in"⟩⟩, ⟨"disk", ⟨"two", "left"⟩⟩, ⟨"disk", ⟨"two", "right"⟩⟩], []⟩

theorem within_twoDisks {inner : Component} (h : twoDisks.Within inner) :
    inner = twoDisks ∨ inner = volumeBrick 1 := by
  rcases within_volumeGraph.1 h with rfl | ⟨node, hnode, child, hchild, hinner⟩
  · exact .inl rfl
  · have hbrick : child = volumeBrick 1 := by
      rcases List.mem_pair.1 hnode with rfl | rfl <;> exact (Option.some.inj hchild).symm
    rw [hbrick] at hinner
    exact .inr (within_volumeBrick.1 hinner)

theorem within_sharedDisk {inner : Component} (h : sharedDisk.Within inner) :
    inner = sharedDisk ∨ inner = twoDisks ∨ inner = volumeBrick 1 := by
  rcases within_volumeGraph.1 h with rfl | ⟨node, hnode, child, hchild, hinner⟩
  · exact .inl rfl
  · rcases List.mem_pair.1 hnode with rfl | rfl
    · obtain rfl := Option.some.inj hchild
      exact .inr (.inr (within_volumeBrick.1 hinner))
    · obtain rfl := Option.some.inj hchild
      exact .inr (within_twoDisks hinner)

theorem twoDisks_faithfulIds : twoDisks.FaithfulIds := by
  intro left right hleft hright hid
  rcases within_twoDisks hleft with rfl | rfl <;> rcases within_twoDisks hright with rfl | rfl
  case inl.inl | inr.inr => rfl
  all_goals exact absurd hid (by decide)

theorem sharedDisk_faithfulIds : sharedDisk.FaithfulIds := by
  intro left right hleft hright hid
  rcases within_sharedDisk hleft with rfl | rfl | rfl <;>
    rcases within_sharedDisk hright with rfl | rfl | rfl
  case inl.inl | inr.inl.inr.inl | inr.inr.inr.inr => rfl
  all_goals exact absurd hid (by decide)

/-- The volume of the one input is bound. -/
def sharedDiskScopes : Scopes := ⟨.empty, KeyMap.ofList [("disk", "v")]⟩

theorem sharedDisk_calls :
    ∃ templates, sharedDisk.templates .default sharedDiskScopes = .ok templates ∧
      templates.map Template.calls =
        [[(ComponentId.repeating 1).text, (ComponentId.repeating 2).text], [],
          [(ComponentId.repeating 1).text, (ComponentId.repeating 1).text]] ∧
      ∀ template, ¬ Relation.TransGen (Template.CallsIn templates) template template := by
  have hcalls : ∃ templates, sharedDisk.templates .default sharedDiskScopes = .ok templates ∧
      templates.map Template.calls =
        [[(ComponentId.repeating 1).text, (ComponentId.repeating 2).text], [],
          [(ComponentId.repeating 1).text, (ComponentId.repeating 1).text]] := by
    rw [← exists_ok_iff]
    decide
  obtain ⟨templates, hok, hcalls⟩ := hcalls
  obtain ⟨-, -, -, -, hacyclic⟩ := templates_form_call_graph sharedDisk_faithfulIds hok
  exact ⟨templates, hok, hcalls, hacyclic⟩

end Component

end Pipeline
