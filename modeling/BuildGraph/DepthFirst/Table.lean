import BuildGraph.DepthFirst
import BuildGraph.SortedMap

/-! The sort of nodes whose successors are given by a table. -/

namespace BuildGraph

universe u

variable {α : Type u} [Ord α]

/-- The successors of a node; one that the table does not know has none. -/
def SortedMap.successors (table : SortedMap α (List α)) (a : α) : List α :=
  -- A node without an entry ends every walk that comes to it.
  (table.get? a).getD []

namespace DepthFirst

/-- Only roots and nodes in the table can be reached along it. -/
theorem finitelyReachable_successors (roots : List α) (table : SortedMap α (List α)) :
    FinitelyReachable roots table.successors := by
  -- A successor stands in one of the values of the table.
  refine .of_closed (roots ++ table.values.flatten) (fun _ given => List.mem_append_left _ given)
    fun a _ b next => List.mem_append_right _ ?_
  cases found : table.find? a with
  | none => simp [SortedMap.successors, SortedMap.get?, found] at next
  | some entry =>
    simp only [SortedMap.successors, SortedMap.get?, found, Option.map_some, Option.getD_some]
      at next
    exact List.mem_flatten.mpr
      ⟨entry.2, List.mem_map.mpr ⟨entry, List.mem_of_find?_eq_some found, rfl⟩, next⟩

/-- The sort along a table. -/
def sortTable [Std.TransOrd α] (roots : List α) (table : SortedMap α (List α)) :
    Except (List α) (List α) :=
  -- Only what the table mentions can be reached, so the search is bound to end.
  sort compare roots table.successors (finitelyReachable_successors roots table)

end DepthFirst

end BuildGraph
