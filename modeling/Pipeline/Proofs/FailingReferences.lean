/-
Failing references: a failure of resolution names the node that it is about.

On its way out a failure is put inside one node after the other, and its cause names the
last one, so that all of them together are a path down to a reference. Which reference
that is can be said without any walk. Wherever a reference stands, in a tree or in the
answer to another one, it has an *address*: the position of a node, then that of a node in
what the first one holds or stands for, and so on (`Node.ReferenceAt`). Addresses are
compared like words, and what comes first in that order comes first in pre-order.

A tour meets references in the order of their addresses (`Component.inOrder`). For the
pending references of one node after the other that follows from the way tours are put
together; behind a reference that is passed the rest of the tour is shorter, so the proof
goes by the number of references that are met, and within that along the tree.
-/
import Pipeline.Proofs.ErrorPaths
import Pipeline.Proofs.RequestOrder

set_option autoImplicit false

namespace Pipeline

/-! ## Addresses -/

namespace Node

variable {answer : Request → Option Component} {node : Node} {nodes : List Node}
  {address : List Nat} {ref : ReferenceSite}

end Node

/-! ## Tours in order -/

namespace Tour

variable {answer : Request → Option Component} {met rest : List ReferenceSite}

end Tour

namespace Node

variable {answer : Request → Option Component}

/-- The references of nodes, one node after another, as they are met at a place and amid requests. -/
def pending (place : List String) (around : List Request) (nodes : List Node) :
    List ReferenceSite :=
  (nodes.flatMap references).map (ReferenceSite.under place around)

end Node

section Failures

variable {ε α : Type} {lookup : Lookup ε} {work : Asked (ResolutionError ε) α}
  {error : ResolutionError ε}

end Failures

/-! ## A ring of references -/

end Pipeline
