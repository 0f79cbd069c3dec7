/-
Repeated templates: dropping them goes with putting lists together.

Repeats are dropped in a walk that remembers which names it has seen. What the walk
remembers does no more than filter what would be kept without it
(`Template.distinctBeyond_eq_filter`), and so there is an equation for a list and its
first template that knows of no memory (`Template.distinct_cons_eq_filter`). All laws
are inductions with that equation. The law about two lists, one behind the other, says
that the first keeps all it would keep alone, and that the second adds what it would
keep alone and what is new (`Template.distinct_append`).

The templates of a tree are put together from lists. It makes no difference whether
repeats are dropped once for the whole tree or below every node already: a tree is
lowered as its root and the trees below its nodes are lowered by themselves
(`Component.templates_eq_ok_iff`). Nor does it make one to drop them again when the
manifest is finished.
-/
import Mathlib.Data.List.Induction
import Pipeline.Proofs.CallGraph
import Pipeline.Proofs.Seeding
import Pipeline.Proofs.WellWired

set_option autoImplicit false

namespace Pipeline

open Manifest (Template Workflow WorkflowDraft)

/-! ## Lists of templates -/

namespace Manifest.Template

/-- The names that were seen only filter what is kept. -/
theorem distinctBeyond_eq_filter (seen : List String) (templates : List Template) :
    distinctBeyond seen templates =
      (distinct templates).filter fun template => template.name ∉ seen := by
  induction templates generalizing seen with
  | nil => rfl
  | cons head templates ih =>
    rw [distinct_cons, ih [head.name], distinctBeyond]
    by_cases hseen : head.name ∈ seen
    · rw [if_pos hseen, ih seen, List.filter_cons_of_neg (by simpa using hseen),
        List.filter_filter]
      -- What has not been seen has another name than the head, which has.
      refine List.filter_congr fun template _ => ?_
      have hne : template.name ∉ seen → template.name ≠ head.name := fun hnew heq =>
        hnew (heq ▸ hseen)
      simpa using hne
    · rw [if_neg hseen, ih (head.name :: seen), List.filter_cons_of_pos (by simpa using hseen),
        List.filter_filter]
      refine congrArg (head :: ·) (List.filter_congr fun template _ => ?_)
      simp [Bool.and_comm]

/-- The first template stays, and of what would be kept behind it all that has another name. -/
theorem distinct_cons_eq_filter (template : Template) (templates : List Template) :
    distinct (template :: templates) =
      template :: (distinct templates).filter fun other => other.name ≠ template.name := by
  rw [distinct_cons, distinctBeyond_eq_filter]
  refine congrArg (template :: ·) (List.filter_congr fun other _ => ?_)
  simp

/-- Two lists keep what the first would keep alone, and of what the second would keep alone all that
is new. -/
theorem distinct_append (templates others : List Template) :
    distinct (templates ++ others) = distinct templates ++
      (distinct others).filter fun other => other.name ∉ templates.map Template.name := by
  induction templates with
  | nil => simp [distinct, distinctBeyond]
  | cons template templates ih =>
    rw [List.cons_append, distinct_cons_eq_filter, distinct_cons_eq_filter, ih,
      List.filter_append, List.filter_filter, List.cons_append]
    refine congrArg (fun rest => template :: (_ ++ rest)) (List.filter_congr fun other _ => ?_)
    simp

/-- Where no name is repeated, nothing is dropped. -/
theorem distinct_of_nodup {templates : List Template}
    (h : (templates.map Template.name).Nodup) : distinct templates = templates := by
  induction templates with
  | nil => rfl
  | cons template templates ih =>
    rw [List.map_cons, List.nodup_cons] at h
    obtain ⟨hnew, hrest⟩ := h
    rw [distinct_cons_eq_filter, ih hrest]
    refine congrArg (template :: ·) (List.filter_eq_self.2 fun other hother => ?_)
    have hne : other.name ≠ template.name := fun heq =>
      hnew (heq ▸ List.mem_map_of_mem hother)
    simpa using hne

theorem distinct_distinct (templates : List Template) :
    distinct (distinct templates) = distinct templates :=
  distinct_of_nodup (nodup_names_distinct templates)

/-- Repeats may be dropped from parts of a list before they are dropped from all of it. -/
theorem distinct_flatten_map_distinct (parts : List (List Template)) :
    distinct (parts.map distinct).flatten = distinct parts.flatten := by
  induction parts with
  | nil => rfl
  | cons part parts ih =>
    rw [List.map_cons, List.flatten_cons, List.flatten_cons, distinct_append, distinct_append, ih,
      distinct_distinct]
    -- The part has the same names as before.
    simp only [mem_names_distinct]

/-! ### The first at their places -/

/-- The templates at those places before which no other one of the same name stands. -/
def firsts (templates : List Template) : List Template :=
  (templates.zipIdx.filter fun entry =>
    entry.1.name ∉ (templates.take entry.2).map Template.name).map Prod.fst

theorem firsts_append_singleton (templates : List Template) (template : Template) :
    firsts (templates ++ [template]) = firsts templates ++
      [template].filter fun other => other.name ∉ templates.map Template.name := by
  rw [firsts, List.zipIdx_append, List.filter_append, List.map_append]
  congr 1
  · -- Nothing changes at the places before the last one.
    refine congrArg (List.map Prod.fst) (List.filter_congr fun entry hentry => ?_)
    obtain ⟨-, hplace, -⟩ := List.mem_zipIdx (x := entry.1) (i := entry.2) hentry
    rw [List.take_append_of_le_length (by omega)]
  · rw [List.zipIdx_singleton, Nat.zero_add, List.filter_cons, List.filter_cons]
    simp only [List.take_left']
    split <;> rfl

theorem distinct_eq_firsts (templates : List Template) : distinct templates = firsts templates := by
  induction templates using List.reverseRecOn with
  | nil => rfl
  | append_singleton templates template ih =>
    rw [distinct_append, firsts_append_singleton, ih]
    rfl

theorem distinct_sublist (templates : List Template) : (distinct templates).Sublist templates := by
  rw [distinct_eq_firsts]
  have h := (List.filter_sublist (l := templates.zipIdx) (p := fun entry =>
    entry.1.name ∉ (templates.take entry.2).map Template.name)).map Prod.fst
  rwa [List.zipIdx_map_fst] at h

end Manifest.Template

/-! ## Trees -/

namespace Component

variable {root : Component} {settings : Settings} {scopes : Scopes} {templates : List Template}

/-- A valid component is lowered when its visit is, to the first template of every name. -/
theorem templates_of_valid (hvalid : root.validate = .ok ()) :
    root.templates settings scopes = .ok templates ↔
      ∃ repeats, Visit.allTemplates ⟨root, scopes⟩ settings = .ok repeats ∧
        Template.distinct repeats = templates := by
  rw [Component.templates, map_eq_ok]
  simp only [templatesWithRepeats_eq_ok, hvalid, true_and]

/-- What stands below a node of a valid tree, each name once, is what the component there is lowered
to by itself. -/
theorem below_eq_ok (hvalid : root.validate = .ok ()) {claim : String × Node}
    (hclaim : claim ∈ root.claimants) {part : List Template} :
    (claim.2.templates settings (root.wiring.narrow scopes claim.1)).map Template.distinct =
        .ok part ↔
      ∃ next, Visit.HandsTo ⟨root, scopes⟩ claim next ∧
        next.component.templates settings next.scopes = .ok part := by
  have hchild : ∀ next : Visit, Visit.HandsTo ⟨root, scopes⟩ claim next →
      next.component.validate = .ok () := fun next hnext =>
    (validate_eq_ok.1 hvalid).2 _ (hasChild_of_claimant hclaim hnext.1)
  have hvisit (result : List Template) :=
    @Visit.templates_eq_ok ⟨root, scopes⟩ claim settings result
  rw [map_eq_ok]
  constructor
  · rintro ⟨result, hresult, hpart⟩
    obtain ⟨next, hnext, hall⟩ := (hvisit result).1 hresult
    exact ⟨next, hnext, (templates_of_valid (hchild next hnext)).2 ⟨result, hall, hpart⟩⟩
  · rintro ⟨next, hnext, hpart⟩
    obtain ⟨result, hall, hpart⟩ := (templates_of_valid (hchild next hnext)).1 hpart
    exact ⟨result, (hvisit result).2 ⟨next, hnext, hall⟩, hpart⟩

/-- **A tree is lowered as its root and the trees below its nodes are.** Its templates are that of
the root and those of the component at each node, lowered by itself under the scopes that it is
handed; of several ones of a name the first is kept. -/
theorem templates_eq_ok_iff :
    root.templates settings scopes = .ok templates ↔
      root.validate = .ok () ∧ ∃ own parts, root.template settings scopes = .ok own ∧
        List.Forall₂ (fun claim part => ∃ next, Visit.HandsTo ⟨root, scopes⟩ claim next ∧
          next.component.templates settings next.scopes = .ok part) root.claimants parts ∧
        Template.distinct (own :: parts.flatten) = templates := by
  have hparts (own : Template) (below : List (List Template)) :
      Template.distinct (own :: (below.map Template.distinct).flatten) =
        Template.distinct (own :: below.flatten) := by
    rw [Template.distinct_cons_eq_filter, Template.distinct_flatten_map_distinct,
      Template.distinct_cons_eq_filter]
  constructor
  · intro hok
    have hvalid := valid_of_templates hok
    obtain ⟨repeats, hall, hdistinct⟩ := (templates_of_valid hvalid).1 hok
    rw [Visit.allTemplates, allTemplates_eq] at hall
    obtain ⟨own, hown, hall⟩ := bind_eq_ok.1 hall
    obtain ⟨below, hbelow, hall⟩ := bind_eq_ok.1 hall
    obtain rfl := pure_eq_ok.1 hall
    refine ⟨hvalid, own, below.map Template.distinct, hown, ?_, hparts own below ▸ hdistinct⟩
    rw [← forall₂_congr_of_mem fun claim hclaim part => below_eq_ok hvalid hclaim, ← mapM_eq_ok,
      mapM_map_eq_ok]
    exact ⟨below, hbelow, rfl⟩
  · rintro ⟨hvalid, own, parts, hown, hall, hdistinct⟩
    rw [← forall₂_congr_of_mem fun claim hclaim part => below_eq_ok hvalid hclaim, ← mapM_eq_ok,
      mapM_map_eq_ok] at hall
    obtain ⟨below, hbelow, rfl⟩ := hall
    refine (templates_of_valid hvalid).2 ⟨own :: below.flatten, ?_, hparts own below ▸ hdistinct⟩
    rw [Visit.allTemplates, allTemplates_eq]
    exact bind_eq_ok.2 ⟨own, hown, bind_eq_ok.2 ⟨below, hbelow, rfl⟩⟩

end Component

/-! ## Finishing a manifest -/

/-- Nothing is left to be dropped from the templates of a tree. -/
theorem Component.distinct_of_templates {root : Component} {settings : Settings} {scopes : Scopes}
    {templates : List Template} (hok : root.templates settings scopes = .ok templates) :
    Template.distinct templates = templates := by
  obtain ⟨repeats, -, rfl⟩ := templates_eq_ok hok
  exact Template.distinct_distinct repeats

/-- The manifest of a job has the templates of its root. -/
theorem Job.templates_of_lower {job : Job} {settings : Settings} {workflow : Workflow}
    (hok : job.lower settings = .ok workflow) :
    ∃ root seed, job.root = .ok root ∧ Seed.ofValues root job.inputs = .ok seed ∧
      root.templates settings seed.scopes = .ok workflow.spec.templates := by
  obtain ⟨root, seed, templates, hroot, hseed, htemplates, rfl⟩ := Job.lower_eq_ok.1 hok
  refine ⟨root, seed, hroot, hseed, ?_⟩
  rw [Job.spec_draft, Component.distinct_of_templates htemplates]
  exact htemplates

/-- **Of every name the first template is kept.** What is kept of two lists, one behind the other,
is what is kept of the first and, in order, what is kept of the second under names that the first
does not have. What is kept of a list is what stands at the places before which its name does not
occur: a sublist, in which every name of the list stands once, for the first template of that name.
Dropping repeats again changes nothing, neither in such a list nor when a manifest is finished with
the templates of a tree. -/
theorem Manifest.Template.distinct_keeps_first :
    (∀ templates others : List Template, distinct (templates ++ others) = distinct templates ++
      (distinct others).filter fun other => other.name ∉ templates.map Template.name) ∧
    (∀ templates : List Template, distinct templates = firsts templates ∧
      (distinct templates).Sublist templates ∧
      ((distinct templates).map Template.name).Nodup ∧
      (∀ name, name ∈ (distinct templates).map Template.name ↔
        name ∈ templates.map Template.name) ∧
      (∀ template, template ∈ distinct templates ↔
        ofName? templates template.name = some template) ∧
      distinct (distinct templates) = distinct templates) ∧
    (∀ (root : Component) (settings : Settings) (scopes : Scopes) (templates : List Template),
      root.templates settings scopes = .ok templates → ∀ draft : WorkflowDraft,
        (draft.withTemplates templates).finish.spec.templates = templates) ∧
    ∀ (job : Job) (settings : Settings) (workflow : Workflow), job.lower settings = .ok workflow →
      ∃ root seed, job.root = .ok root ∧ Seed.ofValues root job.inputs = .ok seed ∧
        root.templates settings seed.scopes = .ok workflow.spec.templates := by
  refine ⟨distinct_append, fun templates => ?_, fun root settings scopes templates hok draft => ?_,
    fun job settings workflow hok => Job.templates_of_lower hok⟩
  · exact ⟨distinct_eq_firsts templates, distinct_sublist templates, nodup_names_distinct templates,
      fun name => mem_names_distinct, fun template => mem_distinct, distinct_distinct templates⟩
  · exact Component.distinct_of_templates hok

/-- A job with a value for the one volume of the disk that is shared. -/
def sharedDiskJob : Job where
  workflow := ⟨.repeating 9, "job", "space", .inline .sharedDisk⟩
  inputs := [⟨"disk", .text "\x7b\"name\":\"v\"\x7d"⟩]

/-- The five templates of the shared disk come down to three when its tree is lowered, and to no
fewer when its manifest is finished. -/
theorem sharedDiskJob_templates :
    ∃ workflow, sharedDiskJob.lower .default = .ok workflow ∧
      workflow.spec.templates.length = 3 ∧
      (∃ root seed, sharedDiskJob.root = .ok root ∧
        Seed.ofValues root sharedDiskJob.inputs = .ok seed ∧
        root.templates .default seed.scopes = .ok workflow.spec.templates) ∧
      ∀ draft : WorkflowDraft,
        (draft.withTemplates workflow.spec.templates).finish.spec.templates =
          workflow.spec.templates := by
  have hlowered : ∃ workflow, sharedDiskJob.lower .default = .ok workflow ∧
      workflow.spec.templates.length = 3 := by
    rw [← exists_ok_iff]
    decide +kernel
  obtain ⟨workflow, hok, hlength⟩ := hlowered
  obtain ⟨-, -, htree, hjob⟩ := Manifest.Template.distinct_keeps_first
  obtain ⟨root, seed, hroot, hseed, htemplates⟩ := hjob _ _ _ hok
  exact ⟨workflow, hok, hlength, ⟨root, seed, hroot, hseed, htemplates⟩,
    htree root .default seed.scopes _ htemplates⟩

end Pipeline
