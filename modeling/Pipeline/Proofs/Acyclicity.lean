/-
Circles: what the check of a graph's structure accepts, and what it refuses.

The check takes away, round by round, the nodes that nothing left has an edge
into, and accepts when nothing is left. What it has to find out is a statement
without rounds: whether a node reaches itself along edges. The two meet from both
sides. The nodes of a circle hold one another in place, however many rounds there
are (`Graph.mem_peel_of_circle`). And what is left after so many rounds has a path
of as many edges behind it (`Graph.exists_path_of_mem_peel`): with as many rounds
as there are nodes, the path is too long not to meet itself.

Parallel edges, edges from a node to itself and parts of a graph that have nothing
to do with one another need no case of their own.
-/
import Mathlib.Data.List.Chain
import Mathlib.Data.List.Perm.Subperm
import Pipeline.Proofs.WellWired

set_option autoImplicit false

namespace Pipeline

namespace Graph

variable {graph : Graph}

/-! ## What is meant -/

/-- An edge leads from the one node to the other. -/
def Precedes (graph : Graph) (source target : String) : Prop :=
  ∃ edge ∈ graph.edges, edge.source.node = source ∧ edge.target.node = target

/-- No node reaches itself along one or more edges. -/
def Acyclic (graph : Graph) : Prop :=
  ∀ id, ¬ Relation.TransGen graph.Precedes id id

/-! ## Circles stay -/

/-- The nodes of a circle hold one another in place. -/
theorem mem_peel_of_circle {rest : List String}
    (htargets : ∀ edge ∈ graph.edges, edge.target.node ∈ rest) (rounds : Nat) {id : String}
    (hcircle : Relation.TransGen graph.Precedes id id) : id ∈ peel graph.edges rounds rest := by
  -- All circles at once, since the node before has to be on one as well.
  induction rounds generalizing id with
  | zero =>
    obtain ⟨_, _, edge, hedge, -, rfl⟩ := Relation.TransGen.tail'_iff.1 hcircle
    exact htargets edge hedge
  | succ rounds ih =>
    have hstays : id ∈ peel graph.edges rounds rest := ih hcircle
    obtain ⟨before, hpath, hprecedes⟩ := Relation.TransGen.tail'_iff.1 hcircle
    have hbefore : before ∈ peel graph.edges rounds rest :=
      ih (Relation.TransGen.head' hprecedes hpath)
    obtain ⟨edge, hedge, rfl, htarget⟩ := hprecedes
    exact mem_peel_succ.2 ⟨hstays, edge, hedge, htarget, hbefore⟩

theorem acyclic_of_isAcyclic
    (htargets : ∀ edge ∈ graph.edges, edge.target.node ∈ graph.nodes.map (·.id))
    (h : graph.isAcyclic = true) : graph.Acyclic := by
  intro id hcircle
  have hstays := mem_peel_of_circle htargets graph.nodes.length hcircle
  rw [isAcyclic, List.isEmpty_iff] at h
  rw [h] at hstays
  exact List.not_mem_nil hstays

/-! ## What stays is on a circle, or behind one -/

/-- What is left after so many rounds is the end of a path of as many edges. The path is written
from its end backwards. -/
theorem exists_path_of_mem_peel {rounds : Nat} {rest : List String} {id : String}
    (h : id ∈ peel graph.edges rounds rest) :
    ∃ path : List String, path.length = rounds ∧
      (id :: path).IsChain (Function.swap graph.Precedes) ∧ id :: path ⊆ rest := by
  induction rounds generalizing id with
  | zero =>
    have hmem : id ∈ rest := h
    refine ⟨[], rfl, .singleton id, ?_⟩
    intro node hnode
    rwa [List.mem_singleton.1 hnode]
  | succ rounds ih =>
    obtain ⟨hstays, edge, hedge, rfl, hsource⟩ := mem_peel_succ.1 h
    obtain ⟨path, hlength, hchain, hpath⟩ := ih hsource
    obtain ⟨_, -, -, hrest⟩ := ih hstays
    have hstep : graph.Precedes edge.source.node edge.target.node := ⟨edge, hedge, rfl, rfl⟩
    refine ⟨edge.source.node :: path, ?_, List.isChain_cons_cons.2 ⟨hstep, hchain⟩, ?_⟩
    · rw [List.length_cons, hlength]
    · exact List.cons_subset.2 ⟨hrest List.mem_cons_self, hpath⟩

/-- Without circles a path meets every node once at most. -/
theorem Acyclic.nodup_path (h : graph.Acyclic) {path : List String}
    (hpath : path.IsChain (Function.swap graph.Precedes)) : path.Nodup := by
  have hreaches : path.IsChain (Relation.TransGen (Function.swap graph.Precedes)) :=
    hpath.imp fun _ _ hstep => .single hstep
  apply hreaches.pairwise.imp
  rintro later _ hcircle rfl
  exact h later (Relation.transGen_swap.1 hcircle)

theorem Acyclic.isAcyclic (h : graph.Acyclic) : graph.isAcyclic = true := by
  rw [Graph.isAcyclic, List.isEmpty_iff, List.eq_nil_iff_forall_not_mem]
  intro id hid
  obtain ⟨path, hlength, hchain, hsubset⟩ := exists_path_of_mem_peel hid
  -- The path has one node more than there are.
  have hnodup : (id :: path).Nodup := h.nodup_path hchain
  have hle := (List.subperm_of_subset hnodup hsubset).length_le
  rw [List.length_cons, hlength, List.length_map] at hle
  exact Nat.not_succ_le_self _ hle

/-! ## The check -/

/-- In a closed graph the rounds find out what they have to. -/
theorem Closed.isAcyclic_iff (h : graph.Closed) : graph.isAcyclic = true ↔ graph.Acyclic :=
  ⟨acyclic_of_isAcyclic h.targets, Acyclic.isAcyclic⟩

/-- **The check of a graph's structure is exact.** It accepts a graph exactly when its nodes have
distinct identifiers, every connection names nodes of the graph, and no node reaches itself along
edges; and it refuses a graph for a circle exactly when the edges are all that is wrong. -/
theorem validateStructure_exact (graph : Graph) (component : ComponentId) :
    (graph.validateStructure component = .ok () ↔ graph.Closed ∧ graph.Acyclic) ∧
      (graph.validateStructure component = .error (.cycle component) ↔
        graph.Closed ∧ ¬ graph.Acyclic) := by
  rcases validateStructure_cases graph component with ⟨hclosed, heq⟩ | ⟨hopen, node, heq | heq⟩
  · rw [heq, ← hclosed.isAcyclic_iff]
    by_cases hacyclic : graph.isAcyclic = true
    · rw [if_pos hacyclic]
      simp [hclosed, hacyclic]
    · rw [if_neg hacyclic]
      simp [hclosed, hacyclic]
  · rw [heq]
    simp [hopen]
  · rw [heq]
    simp [hopen]

/-- A node with two ways to it is not on a circle. An edge back makes one, however late its nodes
are reached. -/
example :
    let edge (source target : String) : Edge := ⟨⟨source, "out"⟩, ⟨target, "in"⟩⟩
    let nodes : List Node := ["a", "b", "c", "d"].map fun id => ⟨id, .latest (.repeating 1)⟩
    let diamond := [edge "a" "b", edge "a" "c", edge "b" "d", edge "c" "d"]
    validateStructure ⟨nodes, diamond, [], []⟩ (.repeating 2) = .ok () ∧
      validateStructure ⟨nodes, diamond ++ [edge "d" "b"], [], []⟩ (.repeating 2) =
        .error (.cycle (.repeating 2)) := by
  decide

end Graph

end Pipeline
