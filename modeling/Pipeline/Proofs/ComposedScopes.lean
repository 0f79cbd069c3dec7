/-
Composed scopes: narrowing twice is narrowing once, by composed pairs.

An inner port is bound by the last of its pairs of which the outer port is bound
(`Scope.get?_narrow_eq_some`): pairs of unbound ports are dropped first, so they do not
hide an earlier pair. Looking for the last pair that gives something also says how pairs
compose. A pair of the second list gives what the last of the pairs that end where it
begins gives, so these pairs, continued to where it ends, can take its place
(`Scope.given?_narrow`). Ports in which no pairs meet, or several of either list, need
no treatment of their own.

Composites narrow secrets by the pairs of their mappings. What is handed down through
any number of them is therefore the scope of the outermost one, narrowed once
(`Visit.Threads.secrets_eq`).
-/
import Pipeline.Proofs.SecretProvenance

set_option autoImplicit false

namespace Pipeline

namespace Scope

variable {β : Type} {scope : Scope β} {bindings : List (String × String)} {inner : String}

/-! ## Narrowing -/

/-- What a pair gives to an inner port, if it is a pair for that port. -/
def given? (scope : Scope β) (inner : String) (binding : String × String) : Option β :=
  if binding.2 = inner then scope.get? binding.1 else none

/-- An inner port is bound to what the last of all pairs that give it something gives. -/
theorem get?_narrow (scope : Scope β) (bindings : List (String × String)) (inner : String) :
    (scope.narrow bindings).get? inner = bindings.reverse.findSome? (scope.given? inner) := by
  rw [narrow, KeyMap.get?_ofList, ← List.getLast?_map, List.filter_filterMap, List.map_filterMap,
    List.getLast?_filterMap]
  congr 1
  funext binding
  rw [given?]
  by_cases hinner : binding.2 = inner <;> cases scope.get? binding.1 <;> simp [hinner]

theorem given?_eq_some {binding : String × String} {value : β} :
    scope.given? inner binding = some value ↔
      binding.2 = inner ∧ scope.get? binding.1 = some value := by
  rw [given?, Option.ite_none_right_eq_some]

theorem given?_eq_none {binding : String × String} :
    scope.given? inner binding = none ↔ binding.2 = inner → scope.get? binding.1 = none := by
  rw [given?, ite_eq_right_iff]

/-- Pairs give nothing to an inner port when those for it begin at ports that are not bound. -/
theorem forall_given?_eq_none :
    (∀ binding ∈ bindings, scope.given? inner binding = none) ↔
      ∀ outer, (outer, inner) ∈ bindings → scope.get? outer = none := by
  constructor
  · intro hnone outer hbinding
    exact given?_eq_none.1 (hnone _ hbinding) rfl
  · rintro hnone ⟨outer, port⟩ hbinding
    refine given?_eq_none.2 ?_
    rintro rfl
    exact hnone outer hbinding

/-- An inner port is bound by its last pair of which the outer port is bound. -/
theorem get?_narrow_eq_some {value : β} :
    (scope.narrow bindings).get? inner = some value ↔
      ∃ before outer after, bindings = before ++ (outer, inner) :: after ∧
        scope.get? outer = some value ∧
        ∀ other, (other, inner) ∈ after → scope.get? other = none := by
  rw [get?_narrow, List.findSome?_eq_some_iff]
  constructor
  -- The pairs are searched from the last one on, so those behind come first.
  · rintro ⟨after, ⟨outer, port⟩, before, hsplit, hgiven, hafter⟩
    obtain ⟨rfl, hvalue⟩ := given?_eq_some.1 hgiven
    refine ⟨before.reverse, outer, after.reverse, ?_, hvalue, fun other hother => ?_⟩
    · rw [List.reverse_eq_iff.1 hsplit]
      simp
    · exact forall_given?_eq_none.1 hafter other (List.mem_reverse.1 hother)
  · rintro ⟨before, outer, after, rfl, hvalue, hafter⟩
    refine ⟨after.reverse, (outer, inner), before.reverse, by simp,
      given?_eq_some.2 ⟨rfl, hvalue⟩, ?_⟩
    exact forall_given?_eq_none.2 fun other hother => hafter other (List.mem_reverse.1 hother)

/-- An inner port is bound only by a pair of a bound outer port. -/
theorem get?_narrow_eq_none :
    (scope.narrow bindings).get? inner = none ↔
      ∀ outer, (outer, inner) ∈ bindings → scope.get? outer = none := by
  rw [get?_narrow, List.findSome?_eq_none_iff, forall_given?_eq_none]
  simp only [List.mem_reverse]

/-! ## Narrowing twice -/

/-- The pairs of a list that end where a pair begins, each continued to where that pair ends. -/
def continued (first : List (String × String)) (binding : String × String) :
    List (String × String) :=
  (first.filter (·.2 = binding.1)).map fun outer => (outer.1, binding.2)

/-- The pairs that lead through a port between two lists, in the order of the second list. -/
def through (first second : List (String × String)) : List (String × String) :=
  second.flatMap (continued first)

/-- A pair gives of a narrowed scope what the pairs continued by it give of the scope. -/
theorem given?_narrow (scope : Scope β) (first : List (String × String)) (inner : String)
    (binding : String × String) :
    (scope.narrow first).given? inner binding =
      ((continued first binding).filterMap (scope.given? inner)).getLast? := by
  rw [given?, get?_narrow, continued, List.filterMap_map, List.filterMap_filter,
    List.getLast?_filterMap]
  by_cases hinner : binding.2 = inner
  · rw [if_pos hinner]
    congr 1
    funext outer
    simp [given?, hinner]
  · rw [if_neg hinner, eq_comm, List.findSome?_eq_none_iff]
    intro outer _
    simp [given?, hinner]

/-- Narrowing twice is narrowing once by the pairs that lead through. -/
theorem narrow_narrow (scope : Scope β) (first second : List (String × String)) :
    (scope.narrow first).narrow second = scope.narrow (through first second) := by
  refine KeyMap.ext_get? fun inner => ?_
  calc ((scope.narrow first).narrow second).get? inner
      = second.reverse.findSome? ((scope.narrow first).given? inner) := get?_narrow _ _ _
    _ = second.reverse.findSome? fun binding =>
          ((continued first binding).filterMap (scope.given? inner)).getLast? := by
        rw [funext (given?_narrow scope first inner)]
    _ = ((through first second).filterMap (scope.given? inner)).getLast? := by
        rw [through, List.filterMap_flatMap, List.getLast?_flatMap]
    _ = (scope.narrow (through first second)).get? inner := by
        rw [get?_narrow, List.getLast?_filterMap]

example : through [("a", "m"), ("b", "m"), ("c", "n")] [("m", "x"), ("n", "y"), ("m", "z")] =
    [("a", "x"), ("b", "x"), ("c", "y"), ("a", "z"), ("b", "z")] := by decide

end Scope

/-! ## Nested composites -/

namespace Visit

variable {visit inner : Visit} {bindings : List (String × String)}

/-- Pairs of inputs lead from a visit to one below it: those of the mappings into a child, or those
that lead on from there. -/
inductive Threads (visit : Visit) : List (String × String) → Visit → Prop where
  | child {claim : String × Node} {next : Visit} (hnext : visit.HandsTo claim next) :
      Threads visit (InputMapping.bindings visit.component.wiring.inputMappings claim.1) next
  | deeper {bindings : List (String × String)} {claim : String × Node} {middle next : Visit}
      (hmiddle : Threads visit bindings middle) (hnext : middle.HandsTo claim next) :
      Threads visit (Scope.through bindings
        (InputMapping.bindings middle.component.wiring.inputMappings claim.1)) next

/-- However many composites hand secrets down, they are narrowed once. -/
theorem Threads.secrets_eq (h : visit.Threads bindings inner) :
    inner.scopes.secrets = visit.scopes.secrets.narrow bindings := by
  induction h with
  | child hnext => exact hnext.scopes_eq.1
  | deeper _ hnext ih => rw [hnext.scopes_eq.1, ih, Scope.narrow_narrow]

/-- A visit below another one finds the secrets of that one, narrowed by pairs that lead there. -/
theorem exists_threads (h : Relation.TransGen Leads visit inner) :
    ∃ bindings, visit.Threads bindings inner ∧
      inner.scopes.secrets = visit.scopes.secrets.narrow bindings := by
  have hpairs : ∃ bindings, visit.Threads bindings inner := by
    induction h with
    | single hleads =>
      obtain ⟨claim, -, hnext⟩ := hleads
      exact ⟨_, .child hnext⟩
    | tail _ hleads ih =>
      obtain ⟨bindings, hmiddle⟩ := ih
      obtain ⟨claim, -, hnext⟩ := hleads
      exact ⟨_, .deeper hmiddle hnext⟩
  obtain ⟨bindings, hthreads⟩ := hpairs
  exact ⟨bindings, hthreads, hthreads.secrets_eq⟩

end Visit

/-- **Scopes compose.** A narrowed scope binds an inner port to what the last of its pairs with a
bound outer port gives, and binds no port without such a pair. Narrowing a scope twice is narrowing
it once, by the pairs that lead through both lists; so the secrets that two nested composites hand
down are those of the outer one, narrowed by the pairs that lead through both of their mappings. -/
theorem Scope.narrow_composes :
    (∀ (β : Type) (scope : Scope β) (bindings : List (String × String)) (inner : String)
      (value : β), (scope.narrow bindings).get? inner = some value ↔
        ∃ before outer after, bindings = before ++ (outer, inner) :: after ∧
          scope.get? outer = some value ∧
          ∀ other, (other, inner) ∈ after → scope.get? other = none) ∧
    (∀ (β : Type) (scope : Scope β) (bindings : List (String × String)) (inner : String),
      (scope.narrow bindings).get? inner = none ↔
        ∀ outer, (outer, inner) ∈ bindings → scope.get? outer = none) ∧
    (∀ (β : Type) (scope : Scope β) (first second : List (String × String)),
      (scope.narrow first).narrow second = scope.narrow (through first second)) ∧
    ∀ (visit middle inner : Visit) (claim claim' : String × Node), visit.HandsTo claim middle →
      middle.HandsTo claim' inner →
      inner.scopes.secrets = visit.scopes.secrets.narrow
        (through (InputMapping.bindings visit.component.wiring.inputMappings claim.1)
          (InputMapping.bindings middle.component.wiring.inputMappings claim'.1)) := by
  refine ⟨fun β scope bindings inner value => get?_narrow_eq_some,
    fun β scope bindings inner => get?_narrow_eq_none,
    fun β scope first second => narrow_narrow scope first second, ?_⟩
  intro visit middle inner claim claim' hmiddle hinner
  exact (Visit.Threads.deeper (.child hmiddle) hinner).secrets_eq

/-- The one secret of the vault is bound. -/
def vaultScopes : Scopes := ⟨KeyMap.ofList [("token", ⟨"store", "token"⟩)], .empty⟩

/-- The second branch of the guard in the vault finds the secret at the end of a pair that leads
through the mappings of both. -/
theorem vault_hands_through :
    ∃ middle inner : Visit,
      Visit.HandsTo ⟨.vault, vaultScopes⟩ ("guard", ⟨"guard", .inline .guardedSecret⟩) middle ∧
      middle.HandsTo ("yes", ⟨"no", .inline (.secretBrick 2)⟩) inner ∧
      inner.scopes.secrets = vaultScopes.secrets.narrow [("token", "key")] ∧
      inner.scopes.secrets.get? "key" = some ⟨"store", "token"⟩ := by
  have hmiddle : Visit.HandsTo ⟨.vault, vaultScopes⟩ ("guard", ⟨"guard", .inline .guardedSecret⟩)
      ⟨.guardedSecret, ⟨KeyMap.ofList [("secret", ⟨"store", "token"⟩)], .empty⟩⟩ :=
    ⟨rfl, by decide⟩
  have hinner : Visit.HandsTo
      ⟨.guardedSecret, ⟨KeyMap.ofList [("secret", ⟨"store", "token"⟩)], .empty⟩⟩
      ("yes", ⟨"no", .inline (.secretBrick 2)⟩)
      ⟨.secretBrick 2, ⟨KeyMap.ofList [("key", ⟨"store", "token"⟩)], .empty⟩⟩ :=
    ⟨rfl, by decide⟩
  obtain ⟨-, -, -, hcomposes⟩ := Scope.narrow_composes
  refine ⟨_, _, hmiddle, hinner, hcomposes _ _ _ _ _ hmiddle hinner, ?_⟩
  decide

end Pipeline
