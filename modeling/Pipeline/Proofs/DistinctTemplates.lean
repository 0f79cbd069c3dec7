/-
Distinct templates: what is left of a list of templates when every name is kept
once.

One statement carries the rest: a template is kept exactly when it is the first
of its name (`mem_distinct`). The names that are left are therefore the names
that there were, and each of them stands for one template.
-/
import Pipeline.Manifest.Basic
import Pipeline.Proofs.Lookup

set_option autoImplicit false

namespace Pipeline.Manifest.Template

/-- The first template of a name. -/
def ofName? (templates : List Template) (name : String) : Option Template :=
  templates.find? (·.name = name)

theorem name_of_ofName? {templates : List Template} {name : String} {template : Template}
    (h : ofName? templates name = some template) : template.name = name :=
  key_of_find? h

theorem mem_of_ofName? {templates : List Template} {name : String} {template : Template}
    (h : ofName? templates name = some template) : template ∈ templates :=
  List.mem_of_find?_eq_some h

/-- Where a template stands, its name has a first template. -/
theorem exists_ofName? {templates : List Template} {template : Template}
    (h : template ∈ templates) : ∃ first, ofName? templates template.name = some first := by
  have hthere : ∃ other ∈ templates, other.name = template.name := ⟨template, h, rfl⟩
  obtain ⟨first, -, hfirst⟩ := exists_find? hthere
  exact ⟨first, hfirst⟩

theorem ofName?_cons (template : Template) (templates : List Template) (name : String) :
    ofName? (template :: templates) name =
      if template.name = name then some template else ofName? templates name := by
  rw [ofName?, List.find?_cons]
  by_cases h : template.name = name
  · simp [h]
  · simp [h, ofName?]

/-- What is kept beyond the names that were seen is the first template of every other name. -/
theorem mem_distinctBeyond {seen : List String} {templates : List Template} {template : Template} :
    template ∈ distinctBeyond seen templates ↔
      template.name ∉ seen ∧ ofName? templates template.name = some template := by
  induction templates generalizing seen with
  | nil => simp [distinctBeyond, ofName?]
  | cons head templates ih =>
    rw [distinctBeyond, ofName?_cons]
    by_cases hseen : head.name ∈ seen
    · -- The head is dropped, and no template of its name can be kept.
      rw [if_pos hseen, ih]
      refine and_congr_right fun hname => ?_
      rw [if_neg fun heq : head.name = template.name => hname (heq ▸ hseen)]
    · rw [if_neg hseen, List.mem_cons, ih, List.mem_cons, not_or]
      by_cases heq : head.name = template.name
      -- The head is the first of its name, and from now on the name is seen.
      · rw [if_pos heq, Option.some.injEq]
        constructor
        · rintro (rfl | ⟨⟨hne, -⟩, -⟩)
          · exact ⟨hseen, rfl⟩
          · exact absurd heq.symm hne
        · rintro ⟨-, rfl⟩
          exact .inl rfl
      · rw [if_neg heq]
        constructor
        · rintro (rfl | ⟨⟨-, hname⟩, hfirst⟩)
          · exact absurd rfl heq
          · exact ⟨hname, hfirst⟩
        · rintro ⟨hname, hfirst⟩
          exact .inr ⟨⟨fun h => heq h.symm, hname⟩, hfirst⟩

/-- A template is kept exactly when it is the first of its name. -/
theorem mem_distinct {templates : List Template} {template : Template} :
    template ∈ distinct templates ↔ ofName? templates template.name = some template := by
  rw [distinct, mem_distinctBeyond]
  exact and_iff_right List.not_mem_nil

theorem mem_of_mem_distinct {templates : List Template} {template : Template}
    (h : template ∈ distinct templates) : template ∈ templates :=
  mem_of_ofName? (mem_distinct.1 h)

/-- No name is lost. -/
theorem mem_names_distinct {templates : List Template} {name : String} :
    name ∈ (distinct templates).map Template.name ↔ name ∈ templates.map Template.name := by
  rw [List.mem_map, List.mem_map]
  constructor
  · rintro ⟨template, hmem, hname⟩
    exact ⟨template, mem_of_mem_distinct hmem, hname⟩
  · rintro ⟨template, hmem, rfl⟩
    obtain ⟨first, hfirst⟩ := exists_ofName? hmem
    have hname := name_of_ofName? hfirst
    refine ⟨first, ?_, hname⟩
    rw [mem_distinct, hname]
    exact hfirst

theorem nodup_names_distinctBeyond (seen : List String) (templates : List Template) :
    ((distinctBeyond seen templates).map Template.name).Nodup := by
  induction templates generalizing seen with
  | nil => exact List.nodup_nil
  | cons head templates ih =>
    rw [distinctBeyond]
    by_cases hseen : head.name ∈ seen
    · rw [if_pos hseen]
      exact ih seen
    · rw [if_neg hseen, List.map_cons, List.nodup_cons]
      refine ⟨fun hmem => ?_, ih (head.name :: seen)⟩
      obtain ⟨template, htemplate, hname⟩ := List.mem_map.1 hmem
      exact (mem_distinctBeyond.1 htemplate).1 (hname ▸ List.mem_cons_self)

/-- Every name stands once. -/
theorem nodup_names_distinct (templates : List Template) :
    ((distinct templates).map Template.name).Nodup :=
  nodup_names_distinctBeyond [] templates

/-- The first template of all stays in its place. -/
theorem distinct_cons (template : Template) (templates : List Template) :
    distinct (template :: templates) =
      template :: distinctBeyond [template.name] templates := by
  rw [distinct, distinctBeyond, if_neg List.not_mem_nil]

end Pipeline.Manifest.Template
