/-! What a search can meet: the nodes that roots lead to, and the walks between nodes. -/

namespace BuildGraph

universe u

variable {α : Type u}

/-- The nodes that some root leads to in any number of steps. -/
inductive Reachable (roots : List α) (successors : α → List α) : α → Prop where
  -- A root is reachable in no step at all.
  | root {a : α} (given : a ∈ roots) : Reachable roots successors a
  | step {a b : α} (reached : Reachable roots successors a) (next : b ∈ successors a) :
    Reachable roots successors b

/-- Some list holds every node that the roots lead to. -/
def FinitelyReachable (roots : List α) (successors : α → List α) : Prop :=
  -- Nothing is said about how the list is found, so it serves to end a search and not to run it.
  ∃ nodes : List α, ∀ a, Reachable roots successors a → a ∈ nodes

/-- A list that holds the roots and is closed under successors holds all they lead to. -/
theorem FinitelyReachable.of_closed {roots : List α} {successors : α → List α} (nodes : List α)
    (start : ∀ a ∈ roots, a ∈ nodes) (closed : ∀ a ∈ nodes, ∀ b ∈ successors a, b ∈ nodes) :
    FinitelyReachable roots successors := by
  -- The induction is on the way to a node: each of its edges stays within the list.
  refine ⟨nodes, fun a reached => ?_⟩
  induction reached with
  | root given => exact start _ given
  | step _ next ih => exact closed _ ih _ next

/-- A list of nodes each of which has the next one among its successors. -/
def Walk (successors : α → List α) : List α → Prop
  -- A list of one node is a walk that takes no step.
  | [] => True
  | [_] => True
  | a :: b :: rest => b ∈ successors a ∧ Walk successors (b :: rest)

end BuildGraph
