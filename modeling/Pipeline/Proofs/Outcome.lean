/-
Outcomes: what a chain of steps that may fail says about its steps.

Lowering is written as chains of steps, and two questions come up at each of its
functions. If it succeeded, what did its steps return? That is answered by taking
the chain apart (`bind_eq_ok`, `mapM_eq_ok`). If it failed, which errors can it have
failed with? That is answered by `FailsWith`, which goes through chains, lists and
places without looking at what the steps do, and by `FailsOnly` where the cause is
asked for and not the place.

The faults of lowering fall into two groups. Most concern a port, a value or a
binding of the component at hand. Three concern the nodes around it: a node that
holds a reference, a node that is not there, and a claim that does not come to an
end.
-/
import Mathlib.Data.List.Forall2
import Pipeline.Lowering.Fault

set_option autoImplicit false

namespace Pipeline

/-! ## Lists in step -/

section Related

variable {α β : Type} {R : α → β → Prop} {values : List α} {results others : List β}

/-- Each member of a list has its counterpart in a list that is in step with it. -/
theorem exists_related (h : List.Forall₂ R values results) {value : α} (hmem : value ∈ values) :
    ∃ result ∈ results, R value result := by
  induction h with
  | nil => cases hmem
  | cons hfirst _ ih =>
    rcases List.mem_cons.1 hmem with rfl | hmem
    · exact ⟨_, List.mem_cons_self, hfirst⟩
    · obtain ⟨result, hresult, hrelated⟩ := ih hmem
      exact ⟨result, List.mem_cons_of_mem _ hresult, hrelated⟩

/-- A list of which each member has a counterpart has a list in step with it. -/
theorem exists_forall₂ (h : ∀ value ∈ values, ∃ result, R value result) :
    ∃ results, List.Forall₂ R values results := by
  induction values with
  | nil => exact ⟨[], .nil⟩
  | cons value values ih =>
    obtain ⟨result, hresult⟩ := h value List.mem_cons_self
    obtain ⟨results, hresults⟩ := ih fun other hother => h other (List.mem_cons_of_mem _ hother)
    exact ⟨result :: results, .cons hresult hresults⟩

/-- Lists are in step by either of two relations that come to the same for their members. -/
theorem forall₂_congr_of_mem {S : α → β → Prop}
    (h : ∀ value ∈ values, ∀ result, R value result ↔ S value result) :
    List.Forall₂ R values results ↔ List.Forall₂ S values results := by
  induction values generalizing results with
  | nil => rw [List.forall₂_nil_left_iff, List.forall₂_nil_left_iff]
  | cons value values ih =>
    rw [List.forall₂_cons_left_iff, List.forall₂_cons_left_iff]
    refine exists₂_congr fun first rest => ?_
    rw [h value List.mem_cons_self, ih fun other hother => h other (List.mem_cons_of_mem _ hother)]

/-- What each member has in common with its counterpart, the lists have in common. -/
theorem map_eq_of_related {γ : Type} {before : α → γ} {after : β → γ}
    (h : List.Forall₂ R values results)
    (hsame : ∀ value result, R value result → before value = after result) :
    values.map before = results.map after := by
  induction h with
  | nil => rfl
  | cons hfirst _ ih => rw [List.map_cons, List.map_cons, hsame _ _ hfirst, ih]

/-- Two lists in step with a third one are equal, when counterparts are. -/
theorem related_unique (h : List.Forall₂ R values results) (h' : List.Forall₂ R values others)
    (hunique : ∀ value, ∀ result ∈ results, ∀ other, R value result → R value other →
      result = other) : results = others := by
  induction h generalizing others with
  | nil =>
    cases h'
    rfl
  | cons hfirst _ ih =>
    cases h' with
    | cons hfirst' hrest' =>
      have hhead := hunique _ _ List.mem_cons_self _ hfirst hfirst'
      have htail := ih hrest' fun value result hmem =>
        hunique value result (List.mem_cons_of_mem _ hmem)
      rw [hhead, htail]

end Related

/-! ## Success -/

section Success

variable {ι ε α β : Type}

theorem bind_eq_ok {work : Except ε α} {next : α → Except ε β} {result : β} :
    (work >>= next) = .ok result ↔ ∃ value, work = .ok value ∧ next value = .ok result := by
  cases work with
  | error cause => simp [bind, Except.bind]
  | ok value => simp [bind, Except.bind]

theorem pure_eq_ok {value result : α} :
    (pure value : Except ε α) = .ok result ↔ value = result := by
  simp [pure, Except.pure]

theorem map_eq_ok {f : α → β} {work : Except ε α} {result : β} :
    work.map f = .ok result ↔ ∃ value, work = .ok value ∧ f value = result := by
  cases work with
  | error cause => simp [Except.map]
  | ok value => simp [Except.map]

/-- Whatever becomes of the errors, success is left as it is. -/
theorem mapError_eq_ok {ε' : Type} {f : ε → ε'} {work : Except ε α} {result : α} :
    work.mapError f = .ok result ↔ work = .ok result := by
  cases work with
  | error cause => simp [Except.mapError]
  | ok value => simp [Except.mapError]

theorem inside_eq_ok {place : ι} {work : Except (Located ι ε) α} {result : α} :
    inside place work = .ok result ↔ work = .ok result :=
  mapError_eq_ok

theorem located_eq_ok {work : Except ε α} {result : α} :
    (located work : Except (Located ι ε) α) = .ok result ↔ work = .ok result :=
  mapError_eq_ok

/-- What can be computed of a result, when there is one. -/
theorem exists_ok_iff {work : Except ε α} {p : α → Prop} :
    (∃ result ∈ work.toOption, p result) ↔ ∃ result, work = .ok result ∧ p result := by
  cases work with
  | error cause => simp [Except.toOption]
  | ok value => simp [Except.toOption]

/-- A list of steps succeeds when every step does, with their results in order. -/
theorem mapM_eq_ok {step : α → Except ε β} {values : List α} {results : List β} :
    values.mapM step = .ok results ↔
      List.Forall₂ (fun value result => step value = .ok result) values results := by
  induction values generalizing results with
  | nil => rw [List.mapM_nil, pure_eq_ok, List.forall₂_nil_left_iff, eq_comm]
  | cons value values ih =>
    rw [List.mapM_cons, bind_eq_ok]
    constructor
    · rintro ⟨first, hfirst, h⟩
      obtain ⟨rest, hrest, h⟩ := bind_eq_ok.1 h
      obtain rfl := pure_eq_ok.1 h
      exact .cons hfirst (ih.1 hrest)
    · intro h
      cases h with
      | cons hfirst hrest => exact ⟨_, hfirst, bind_eq_ok.2 ⟨_, ih.2 hrest, rfl⟩⟩

/-- Results that are changed step by step are changed after the last one all the same. -/
theorem mapM_map_eq_ok {γ : Type} {step : α → Except ε β} {f : β → γ} {values : List α}
    {results : List γ} :
    values.mapM (fun value => (step value).map f) = .ok results ↔
      ∃ steps, values.mapM step = .ok steps ∧ steps.map f = results := by
  simp only [mapM_eq_ok, map_eq_ok]
  induction values generalizing results with
  | nil => simp [eq_comm]
  | cons value values ih =>
    constructor
    · intro h
      cases h with
      | cons hfirst hrest =>
        obtain ⟨first, hvalue, rfl⟩ := hfirst
        obtain ⟨rest, hvalues, rfl⟩ := ih.1 hrest
        exact ⟨first :: rest, .cons hvalue hvalues, rfl⟩
    · rintro ⟨steps, hsteps, rfl⟩
      cases hsteps with
      | cons hfirst hrest => exact .cons ⟨_, hfirst, rfl⟩ (ih.2 ⟨_, hrest, rfl⟩)

/-- The results of a list of steps that succeeded are those of its members. -/
theorem mem_results_iff {step : α → Except ε β} {values : List α} {results : List β}
    (h : values.mapM step = .ok results) {result : β} :
    result ∈ results ↔ ∃ value ∈ values, step value = .ok result := by
  induction mapM_eq_ok.1 h with
  | nil => simp
  | cons hfirst hrest ih =>
    rw [List.mem_cons, List.exists_mem_cons_iff, ih (mapM_eq_ok.2 hrest), hfirst, Except.ok.injEq,
      eq_comm]

theorem exists_result {step : α → Except ε β} {values : List α} {results : List β}
    (h : values.mapM step = .ok results) {value : α} (hmem : value ∈ values) :
    ∃ result ∈ results, step value = .ok result :=
  exists_related (mapM_eq_ok.1 h) hmem

/-- A list of steps succeeds exactly when every step does. -/
theorem exists_mapM_iff {step : α → Except ε β} {values : List α} :
    (∃ results, values.mapM step = .ok results) ↔
      ∀ value ∈ values, ∃ result, step value = .ok result := by
  simp only [mapM_eq_ok]
  constructor
  · rintro ⟨results, h⟩ value hvalue
    obtain ⟨result, -, hresult⟩ := exists_related h hvalue
    exact ⟨result, hresult⟩
  · exact exists_forall₂

/-- What relates each value to its result relates the lists in both directions. -/
theorem related_of_mapM {step : α → Except ε β} {R : α → β → Prop} {values : List α}
    {results : List β} (h : values.mapM step = .ok results)
    (hstep : ∀ value result, step value = .ok result → R value result) :
    (∀ value ∈ values, ∃ result ∈ results, R value result) ∧
      ∀ result ∈ results, ∃ value ∈ values, R value result := by
  refine ⟨fun value hvalue => ?_, fun result hresult => ?_⟩
  · obtain ⟨result, hresult, hok⟩ := exists_result h hvalue
    exact ⟨result, hresult, hstep value result hok⟩
  · obtain ⟨value, hvalue, hok⟩ := (mem_results_iff h).1 hresult
    exact ⟨value, hvalue, hstep value result hok⟩

/-- What each value has in common with its result, the lists have in common. -/
theorem map_eq_of_mapM {γ : Type} {step : α → Except ε β} {before : α → γ} {after : β → γ}
    (hstep : ∀ value result, step value = .ok result → before value = after result)
    {values : List α} {results : List β} (h : values.mapM step = .ok results) :
    values.map before = results.map after :=
  map_eq_of_related (mapM_eq_ok.1 h) hstep

/-- What two ways through the same values give for each of them is related all along. -/
theorem forall₂_of_mapM {γ : Type} {step : α → Except ε β} {other : α → Except ε γ}
    {related : β → γ → Prop} {values : List α}
    (hrelated : ∀ value result result', step value = .ok result → other value = .ok result' →
      related result result')
    {results : List β} {others : List γ} (hstep : values.mapM step = .ok results)
    (hother : values.mapM other = .ok others) : List.Forall₂ related results others := by
  induction mapM_eq_ok.1 hstep generalizing others with
  | nil =>
    cases mapM_eq_ok.1 hother
    exact .nil
  | cons hfirst hrest ih =>
    cases mapM_eq_ok.1 hother with
    | cons hfirst' hrest' =>
      exact .cons (hrelated _ _ _ hfirst hfirst') (ih (mapM_eq_ok.2 hrest) (mapM_eq_ok.2 hrest'))

/-- Two ways through the same values that both succeed have the same results exactly when they agree
on every value. -/
theorem mapM_eq_iff {step other : α → Except ε β} {values : List α} {results others : List β}
    (hstep : values.mapM step = .ok results) (hother : values.mapM other = .ok others) :
    results = others ↔ ∀ value ∈ values, step value = other value := by
  induction mapM_eq_ok.1 hstep generalizing others with
  | nil =>
    cases mapM_eq_ok.1 hother
    simp
  | cons hfirst hrest ih =>
    cases mapM_eq_ok.1 hother with
    | cons hfirst' hrest' =>
      rw [List.cons.injEq, List.forall_mem_cons, ih (mapM_eq_ok.2 hrest) (mapM_eq_ok.2 hrest'),
        hfirst, hfirst', Except.ok.injEq]

/-- What every step of a fold preserves holds at its end. -/
theorem foldlM_invariant {step : β → α → Except ε β} {values : List α} {invariant : β → Prop}
    (hstep : ∀ state value next, value ∈ values → invariant state →
      step state value = .ok next → invariant next)
    {start result : β} (hstart : invariant start) (h : values.foldlM step start = .ok result) :
    invariant result := by
  -- The invariant holds at the start of what is left of the values.
  induction values generalizing start with
  | nil =>
    obtain rfl := pure_eq_ok.1 h
    exact hstart
  | cons value values ih =>
    rw [List.foldlM_cons] at h
    obtain ⟨state, hstate, h⟩ := bind_eq_ok.1 h
    refine ih (fun state value next hmem => hstep state value next (List.mem_cons_of_mem _ hmem))
      (hstep start value state List.mem_cons_self hstart hstate) h

/-- A fold that succeeds takes a successful step for every value. -/
theorem exists_step_of_foldlM {step : β → α → Except ε β} {values : List α} {start result : β}
    (h : values.foldlM step start = .ok result) {value : α} (hmem : value ∈ values) :
    ∃ state next, step state value = .ok next := by
  induction values generalizing start with
  | nil => cases hmem
  | cons first values ih =>
    rw [List.foldlM_cons] at h
    obtain ⟨state, hstate, h⟩ := bind_eq_ok.1 h
    rcases List.mem_cons.1 hmem with rfl | hmem
    · exact ⟨start, state, hstate⟩
    · exact ih h hmem

end Success

/-! ## Checks in a row -/

section Checks

variable {ε α β : Type}

/-- A chain fails with the error of its first part, or of the second one where the first succeeds. -/
theorem bind_eq_error {work : Except ε α} {next : α → Except ε β} {cause : ε} :
    (work >>= next) = .error cause ↔
      work = .error cause ∨ ∃ value, work = .ok value ∧ next value = .error cause := by
  cases work with
  | error other => simp [bind, Except.bind]
  | ok value => simp [bind, Except.bind]

theorem check_bind_eq_error {check : Except ε Unit} {next : Unit → Except ε α} {cause : ε} :
    (check >>= next) = .error cause ↔
      check = .error cause ∨ check = .ok () ∧ next () = .error cause := by
  rw [bind_eq_error]
  exact or_congr_right ⟨fun ⟨_, hcheck, hnext⟩ => ⟨hcheck, hnext⟩, fun h => ⟨(), h⟩⟩

theorem mapError_eq_error {ε' : Type} {f : ε → ε'} {work : Except ε α} {cause : ε'} :
    work.mapError f = .error cause ↔ ∃ inner, work = .error inner ∧ f inner = cause := by
  cases work with
  | error inner => simp [Except.mapError]
  | ok value => simp [Except.mapError]

theorem forM_eq_ok {check : α → Except ε Unit} {values : List α} :
    forM values check = .ok () ↔ ∀ value ∈ values, check value = .ok () := by
  induction values with
  | nil => simp [pure, Except.pure]
  | cons value values ih =>
    rw [List.forM_cons, bind_eq_ok, List.forall_mem_cons, ← ih]
    exact ⟨fun ⟨_, hvalue, hrest⟩ => ⟨hvalue, hrest⟩, fun ⟨hvalue, hrest⟩ => ⟨(), hvalue, hrest⟩⟩

/-- A list of checks fails with the fault of the first one that fails. -/
theorem forM_eq_error {check : α → Except ε Unit} {values : List α} {cause : ε} :
    forM values check = .error cause ↔
      ∃ before value after, values = before ++ value :: after ∧
        (∀ earlier ∈ before, check earlier = .ok ()) ∧ check value = .error cause := by
  induction values with
  | nil => simp [pure, Except.pure]
  | cons first values ih =>
    rw [List.forM_cons, check_bind_eq_error, ih]
    constructor
    · rintro (hfirst | ⟨hfirst, before, value, after, rfl, hbefore, hvalue⟩)
      · exact ⟨[], first, values, rfl, by simp, hfirst⟩
      · exact ⟨first :: before, value, after, rfl, List.forall_mem_cons.2 ⟨hfirst, hbefore⟩, hvalue⟩
    · rintro ⟨before, value, after, hsplit, hbefore, hvalue⟩
      cases before with
      | nil =>
        obtain ⟨rfl, rfl⟩ := List.cons.inj hsplit
        exact .inl hvalue
      | cons earlier before =>
        obtain ⟨rfl, rfl⟩ := List.cons.inj hsplit
        obtain ⟨hfirst, hbefore⟩ := List.forall_mem_cons.1 hbefore
        exact .inr ⟨hfirst, before, value, after, rfl, hbefore, hvalue⟩

/-- Whatever is done to an error is done to the error of the check that fails. -/
theorem mapError_forM {ε' : Type} (f : ε → ε') (check : α → Except ε Unit) (values : List α) :
    (forM values check).mapError f = forM values fun value => (check value).mapError f := by
  induction values with
  | nil => rfl
  | cons value values ih =>
    rw [List.forM_cons, List.forM_cons, ← ih]
    cases check value <;> rfl

end Checks

/-! ## Failure -/

/-- Work that, if it fails, fails with an allowed error. -/
def FailsWith {α : Type} (allowed : LoweringError → Prop) (work : Lowered α) : Prop :=
  ∀ error, work = .error error → allowed error

namespace FailsWith

variable {α β : Type} {allowed wider : LoweringError → Prop}

theorem ok (value : α) : FailsWith allowed (.ok value : Lowered α) := by
  intro error h
  cases h

theorem fault {cause : LoweringFault} (h : allowed (.here cause)) :
    FailsWith allowed (Pipeline.fault cause : Lowered α) := by
  intro error herror
  cases herror
  exact h

theorem mono {work : Lowered α} (h : FailsWith allowed work)
    (hwider : ∀ error, allowed error → wider error) : FailsWith wider work :=
  fun error herror => hwider _ (h error herror)

/-- A chain fails with the errors of its parts, and of the second only where the first succeeded. -/
theorem bind {work : Lowered α} {next : α → Lowered β} (hwork : FailsWith allowed work)
    (hnext : ∀ value, work = .ok value → FailsWith allowed (next value)) :
    FailsWith allowed (work >>= next) := by
  cases work with
  | error cause =>
    intro error h
    cases h
    exact hwork _ rfl
  | ok value => exact hnext value rfl

/-- Inside a place work fails with its errors, seen from outside that place. -/
theorem inside {place : ComponentId} {work : Lowered α}
    (h : FailsWith (fun error => allowed (error.within place)) work) :
    FailsWith allowed (Pipeline.inside place work) := by
  intro error herror
  cases work with
  | error cause =>
    cases herror
    exact h cause rfl
  | ok value => cases herror

theorem map {work : Lowered α} (f : α → β) (h : FailsWith allowed work) :
    FailsWith allowed (work.map f) := by
  intro error herror
  cases work with
  | error cause =>
    cases herror
    exact h _ rfl
  | ok value => cases herror

theorem mapM {step : α → Lowered β} {values : List α}
    (h : ∀ value ∈ values, FailsWith allowed (step value)) :
    FailsWith allowed (values.mapM step) := by
  induction values with
  | nil => exact ok []
  | cons value values ih =>
    rw [List.mapM_cons]
    refine bind (h value List.mem_cons_self) fun first _ => ?_
    refine bind (ih fun other hother => h other (List.mem_cons_of_mem _ hother)) fun rest _ => ?_
    exact ok (first :: rest)

theorem foldlM {step : β → α → Lowered β} {values : List α} {start : β}
    (h : ∀ value ∈ values, ∀ state, FailsWith allowed (step state value)) :
    FailsWith allowed (values.foldlM step start) := by
  induction values generalizing start with
  | nil => exact ok start
  | cons value values ih =>
    rw [List.foldlM_cons]
    refine bind (h value List.mem_cons_self start) fun state _ => ?_
    exact ih fun other hother => h other (List.mem_cons_of_mem _ hother)

end FailsWith

/-- Work that, if it fails, fails for one of the allowed causes, wherever that may be. -/
def FailsOnly {α : Type} (allowed : LoweringFault → Prop) (work : Lowered α) : Prop :=
  ∀ error, work = .error error → allowed error.cause

namespace FailsOnly

variable {α β : Type} {allowed : LoweringFault → Prop}

theorem ok (value : α) : FailsOnly allowed (.ok value : Lowered α) :=
  FailsWith.ok value

theorem fault {cause : LoweringFault} (h : allowed cause) :
    FailsOnly allowed (Pipeline.fault cause : Lowered α) :=
  FailsWith.fault h

theorem bind {work : Lowered α} {next : α → Lowered β} (hwork : FailsOnly allowed work)
    (hnext : ∀ value, work = .ok value → FailsOnly allowed (next value)) :
    FailsOnly allowed (work >>= next) :=
  FailsWith.bind hwork hnext

/-- A place around an error leaves its cause as it is. -/
theorem inside {place : ComponentId} {work : Lowered α} (h : FailsOnly allowed work) :
    FailsOnly allowed (Pipeline.inside place work) :=
  FailsWith.inside h

theorem map {work : Lowered α} (f : α → β) (h : FailsOnly allowed work) :
    FailsOnly allowed (work.map f) :=
  FailsWith.map f h

end FailsOnly

/-! ## Faults about nodes -/

namespace LoweringFault

/-- The fault concerns the nodes around a component, and not its own ports and values. -/
def IsAboutNodes : LoweringFault → Prop
  | .notDereferenced _ _ | .unknownNode _ | .claimCycle _ _ _ => True
  | _ => False

/-- The fault of a walk that asks for a node that is not there, or that does not end. A tree that
passed its validation gives no occasion for it. -/
def IsLost : LoweringFault → Prop
  | .unknownNode _ | .claimCycle _ _ _ => True
  | _ => False

theorem IsLost.isAboutNodes {cause : LoweringFault} (h : cause.IsLost) : cause.IsAboutNodes := by
  cases cause <;> first | exact h | exact trivial

/-- The fault concerns a port, a value or a binding of the component at hand. -/
def IsOwn : LoweringFault → Prop
  | .invalid _ | .notDereferenced _ _ | .unknownNode _ | .claimCycle _ _ _ => False
  | _ => True

theorem IsOwn.not_isAboutNodes {cause : LoweringFault} (h : cause.IsOwn) :
    ¬ cause.IsAboutNodes := by
  cases cause <;> first | exact h.elim | exact not_false

end LoweringFault

/-- Work that never gets lost among nodes. -/
abbrev NeverLost {α : Type} (work : Lowered α) : Prop :=
  FailsOnly (fun cause => ¬ cause.IsLost) work

/-- Work that fails over nothing but what the component at hand has of its own, and right there. -/
abbrev FailsHere {α : Type} (work : Lowered α) : Prop :=
  FailsWith (fun error => error.path = [] ∧ error.cause.IsOwn) work

/-- Own faults are allowed wherever they are at the place itself. -/
theorem FailsHere.failsWith {α : Type} {allowed : LoweringError → Prop} {work : Lowered α}
    (h : FailsHere work) (hallowed : ∀ cause, cause.IsOwn → allowed (.here cause)) :
    FailsWith allowed work := by
  refine FailsWith.mono h fun error herror => ?_
  obtain ⟨path, cause⟩ := error
  obtain ⟨rfl, hcause⟩ := herror
  exact hallowed cause hcause

end Pipeline
