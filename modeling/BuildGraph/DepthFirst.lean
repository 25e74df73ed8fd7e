import Std.Data.TreeMap.Lemmas
import BuildGraph.Reachable

/-! A depth-first search lists nodes after all they lead to, or shows a loop it ran into. -/

namespace BuildGraph.DepthFirst

universe u

variable {α : Type u}

/-- How far the search has come with a node. -/
inductive Mark where
  -- A node without a mark has not been met.
  /-- Some successors of the node are still to be searched. -/
  | visiting
  | visited
deriving DecidableEq, Inhabited, Repr

/-- A node being visited, with the successors still to be searched. -/
structure Frame (α : Type u) where
  -- A node with nothing pending is the next to be listed.
  node : α
  pending : List α
deriving Inhabited

/-- The state of a search among nodes that are told apart by `cmp`. -/
structure Sorter (α : Type u) (cmp : α → α → Ordering) where
  /-- The roots still to be searched. -/
  roots : List α
  /-- The nodes being visited, innermost first. -/
  frames : List (Frame α) := []
  marks : Std.TreeMap α Mark cmp := {}
  /-- The nodes already listed, latest first. -/
  order : List α := []

/-- What one step of a search comes to. -/
inductive Step (α : Type u) (cmp : α → α → Ordering) where
  | finished (order : List α)
  | loop (nodes : List α)
  | next (sorter : Sorter α cmp)

/-- The smallest of a list of nodes, the first of equally small ones. -/
def smallest (cmp : α → α → Ordering) (first : α) (rest : List α) : α :=
  -- The first of equals stays, since only what is less takes its place.
  rest.foldl (fun least a => if cmp a least = .lt then a else least) first

/-- An open loop turned to begin with its smallest node, which is then repeated at its end. -/
def closeFromSmallest (cmp : α → α → Ordering) : List α → List α
  -- The turn keeps the order around the loop, and only the beginning moves.
  | [] => []
  | first :: rest =>
    let least := smallest cmp first rest
    let (before, after) := (first :: rest).span fun a => cmp a least != .eq
    let turned := after ++ before
    turned ++ turned.take 1

/-- Fewer nodes pass a stricter test that one of them fails. -/
theorem countP_lt_countP {p q : α → Bool} {nodes : List α} {a : α}
    (stricter : ∀ b, p b = true → q b = true) (member : a ∈ nodes) (passes : q a = true)
    (fails : p a = false) : nodes.countP p < nodes.countP q := by
  -- The stricter test is one among the nodes that pass the other.
  have both : nodes.countP p = (nodes.filter q).countP p := by
    rw [List.countP_filter]
    exact List.countP_congr fun b _ => by simpa using stricter b
  rw [both, List.countP_eq_length_filter (p := q)]
  refine Nat.lt_of_le_of_ne List.countP_le_length fun all => ?_
  have passed := List.countP_eq_length.mp all a (List.mem_filter.mpr ⟨member, passes⟩)
  simp [fails] at passed

namespace Sorter

variable {cmp : α → α → Ordering}

/-- The search turns to a new node. -/
def enter (s : Sorter α cmp) (successors : α → List α) (a : α) : Sorter α cmp :=
  -- A node is marked before any of its successors is looked at.
  { s with frames := ⟨a, successors a⟩ :: s.frames, marks := s.marks.insert a .visiting }

/-- The loop from the visited occurrence of `a` back to `a`. -/
def loopAt (s : Sorter α cmp) (a : α) : List α :=
  -- The frames are a walk from the outside in, and its part from the node on is a loop.
  closeFromSmallest cmp ((s.frames.map Frame.node).reverse.dropWhile fun b => cmp b a != .eq)

/-- One step of the search: look at one root or one successor, or list one node. -/
def step (s : Sorter α cmp) (successors : α → List α) : Step α cmp :=
  -- A root that was met from another root is passed over.
  match s.frames with
  | [] =>
    match s.roots with
    | [] => .finished s.order.reverse
    | root :: roots =>
      if s.marks.contains root then .next { s with roots }
      else .next (enter { s with roots } successors root)
  | ⟨node, []⟩ :: frames =>
    .next { s with frames, marks := s.marks.insert node .visited, order := node :: s.order }
  | ⟨node, a :: pending⟩ :: frames =>
    let s := { s with frames := ⟨node, pending⟩ :: frames }
    match (s.marks[a]? : Option Mark) with
    | some .visited => .next s
    | some .visiting => .loop (s.loopAt a)
    | none => .next (s.enter successors a)

/-- What a turn of a search comes to, in each of the cases that it tells apart. -/
inductive Turn (successors : α → List α) : Sorter α cmp → Step α cmp → Prop where
  -- The cases are those of the step, with what each finds in the marks.
  | finish {marks : Std.TreeMap α Mark cmp} {order : List α} :
    Turn successors ⟨[], [], marks, order⟩ (.finished order.reverse)
  | passRoot {root : α} {roots : List α} {marks : Std.TreeMap α Mark cmp} {order : List α}
    (met : marks[root]? ≠ none) :
    Turn successors ⟨root :: roots, [], marks, order⟩ (.next ⟨roots, [], marks, order⟩)
  | enterRoot {root : α} {roots : List α} {marks : Std.TreeMap α Mark cmp} {order : List α}
    (fresh : marks[root]? = none) :
    Turn successors ⟨root :: roots, [], marks, order⟩
      (.next (enter ⟨roots, [], marks, order⟩ successors root))
  | leave {node : α} {roots : List α} {outer : List (Frame α)} {marks : Std.TreeMap α Mark cmp}
    {order : List α} :
    Turn successors ⟨roots, ⟨node, []⟩ :: outer, marks, order⟩
      (.next ⟨roots, outer, marks.insert node .visited, node :: order⟩)
  | pass {node a : α} {roots pending : List α} {outer : List (Frame α)}
    {marks : Std.TreeMap α Mark cmp} {order : List α} (visited : marks[a]? = some .visited) :
    Turn successors ⟨roots, ⟨node, a :: pending⟩ :: outer, marks, order⟩
      (.next ⟨roots, ⟨node, pending⟩ :: outer, marks, order⟩)
  | loop {node a : α} {roots pending : List α} {outer : List (Frame α)}
    {marks : Std.TreeMap α Mark cmp} {order : List α} (visiting : marks[a]? = some .visiting) :
    Turn successors ⟨roots, ⟨node, a :: pending⟩ :: outer, marks, order⟩
      (.loop (loopAt ⟨roots, ⟨node, pending⟩ :: outer, marks, order⟩ a))
  | enter {node a : α} {roots pending : List α} {outer : List (Frame α)}
    {marks : Std.TreeMap α Mark cmp} {order : List α} (fresh : marks[a]? = none) :
    Turn successors ⟨roots, ⟨node, a :: pending⟩ :: outer, marks, order⟩
      (.next (Sorter.enter ⟨roots, ⟨node, pending⟩ :: outer, marks, order⟩ successors a))

/-- Every turn is of one of these cases. -/
theorem turn [Std.TransCmp cmp] {s : Sorter α cmp} {successors : α → List α} {step : Step α cmp}
    (stepped : s.step successors = step) : Turn successors s step := by
  subst stepped
  obtain ⟨roots, frames, marks, order⟩ := s
  cases frames with
  | nil =>
    cases roots with
    | nil => exact .finish
    | cons root roots =>
      -- A root has been met when it has a mark.
      simp only [Sorter.step, ← Std.TreeMap.isSome_getElem?_eq_contains]
      split
      · rename_i met
        exact .passRoot (Option.isSome_iff_ne_none.mp met)
      · rename_i unmet
        exact .enterRoot (by simpa using unmet)
  | cons f outer =>
    obtain ⟨node, pending⟩ := f
    cases pending with
    | nil => exact .leave
    | cons a pending =>
      simp only [Sorter.step]
      split
      · rename_i visited
        exact .pass visited
      · rename_i visiting
        exact .loop visiting
      · rename_i fresh
        exact .enter fresh

/-- All that is still to be looked at is reachable. -/
def Within (s : Sorter α cmp) (roots : List α) (successors : α → List α) : Prop :=
  -- The two lists are all that the search takes nodes from.
  (∀ a ∈ s.roots, Reachable roots successors a) ∧
    ∀ f ∈ s.frames, ∀ a ∈ f.pending, Reachable roots successors a

/-- The number of `nodes` that the search has not turned to. -/
def unmarked (s : Sorter α cmp) (nodes : List α) : Nat :=
  -- Nodes that are the same for the comparison are counted one by one.
  nodes.countP fun a => !s.marks.contains a

/-- The number of looks still to be taken from where the search stands. -/
def remaining (s : Sorter α cmp) : Nat :=
  -- Each frame costs one look for each pending successor, and one more to leave it.
  s.frames.foldr (fun f looks => f.pending.length + 1 + looks) s.roots.length

/-- A step finds nothing that is not reachable. -/
theorem within_of_step [Std.TransCmp cmp] {s t : Sorter α cmp} {roots : List α}
    {successors : α → List α} (within : s.Within roots successors)
    (stepped : s.step successors = .next t) : t.Within roots successors := by
  -- Entering a node brings in its successors, and every other step only drops something.
  obtain ⟨start, pending⟩ := within
  cases turn stepped with
  | passRoot met => exact ⟨(List.forall_mem_cons.mp start).2, pending⟩
  | enterRoot fresh =>
    obtain ⟨here, others⟩ := List.forall_mem_cons.mp start
    exact ⟨others, List.forall_mem_cons.mpr ⟨fun _ => .step here, pending⟩⟩
  | leave => exact ⟨start, (List.forall_mem_cons.mp pending).2⟩
  | pass visited =>
    obtain ⟨waiting, outer⟩ := List.forall_mem_cons.mp pending
    exact ⟨start, List.forall_mem_cons.mpr ⟨(List.forall_mem_cons.mp waiting).2, outer⟩⟩
  | enter fresh =>
    obtain ⟨waiting, outer⟩ := List.forall_mem_cons.mp pending
    obtain ⟨here, later⟩ := List.forall_mem_cons.mp waiting
    exact ⟨start, List.forall_mem_cons.mpr ⟨fun _ => .step here,
      List.forall_mem_cons.mpr ⟨later, outer⟩⟩⟩

/-- Marking a node leaves no more nodes unmarked. -/
theorem countP_insert_le [Std.TransCmp cmp] (marks : Std.TreeMap α Mark cmp) (a : α) (m : Mark)
    (nodes : List α) :
    (nodes.countP fun b => !(marks.insert a m).contains b) ≤
      nodes.countP fun b => !marks.contains b := by
  -- A node that is unmarked after the change was so before it.
  refine List.countP_mono_left fun b _ free => ?_
  simp only [Std.TreeMap.contains_insert, Bool.not_or, Bool.and_eq_true] at free
  exact free.2

/-- Marking one of the nodes that are unmarked, in whatever spelling, leaves fewer of them. -/
theorem countP_insert_lt [Std.TransCmp cmp] {marks : Std.TreeMap α Mark cmp} {a b : α} (m : Mark)
    {nodes : List α} (member : b ∈ nodes) (same : cmp a b = .eq)
    (free : marks.contains a = false) :
    (nodes.countP fun c => !(marks.insert a m).contains c) <
      nodes.countP fun c => !marks.contains c := by
  -- A mark shows under every spelling of its node.
  have free : marks.contains b = false := by rwa [← Std.TreeMap.contains_congr same]
  refine countP_lt_countP (fun c unmarked => ?_) member (by simp [free]) ?_
  · simp only [Std.TreeMap.contains_insert, Bool.not_or, Bool.and_eq_true] at unmarked
    exact unmarked.2
  · simp [Std.TreeMap.contains_insert, same]

/-- A step turns to a new node, or leaves one look less to be taken. -/
theorem progress [Std.TransCmp cmp] {s t : Sorter α cmp} {roots : List α}
    {successors : α → List α} {nodes : List α} (within : s.Within roots successors)
    (bound : ∀ a, Reachable roots successors a → ∃ b ∈ nodes, cmp a b = .eq)
    (stepped : s.step successors = .next t) :
    t.unmarked nodes < s.unmarked nodes ∨
      t.unmarked nodes ≤ s.unmarked nodes ∧ t.remaining < s.remaining := by
  -- What is entered is reachable and has had no mark.
  have free : ∀ {marks : Std.TreeMap α Mark cmp} {a : α}, marks[a]? = none →
      marks.contains a = false := by
    intro marks a fresh
    rw [← Std.TreeMap.isSome_getElem?_eq_contains, fresh]
    rfl
  obtain ⟨start, pending⟩ := within
  cases turn stepped with
  | passRoot met => exact .inr ⟨Nat.le_refl _, by simp [remaining]⟩
  | enterRoot fresh =>
    obtain ⟨b, member, same⟩ := bound _ (start _ (.head _))
    exact .inl (countP_insert_lt .visiting member same (free fresh))
  | leave => exact .inr ⟨countP_insert_le _ _ .visited nodes, by simp [remaining]⟩
  | pass visited => exact .inr ⟨Nat.le_refl _, by simp [remaining]⟩
  | enter fresh =>
    obtain ⟨b, member, same⟩ := bound _ (pending _ (.head _) _ (.head _))
    exact .inl (countP_insert_lt .visiting member same (free fresh))

/-- A step leaves fewer nodes to be entered, or as many and fewer looks to be taken. -/
theorem lex_of_step [Std.TransCmp cmp] {s t : Sorter α cmp} {roots : List α}
    {successors : α → List α} {nodes : List α} (within : s.Within roots successors)
    (bound : ∀ a, Reachable roots successors a → ∃ b ∈ nodes, cmp a b = .eq)
    (stepped : s.step successors = .next t) :
    Prod.Lex (· < ·) (· < ·) (t.unmarked nodes, t.remaining) (s.unmarked nodes, s.remaining) := by
  -- Progress in the first count is enough, and where it stands still there is some in the second.
  rcases progress within bound stepped with fewer | ⟨same, less⟩
  · exact .left _ _ fewer
  · rcases Nat.lt_or_eq_of_le same with fewer | equal
    · exact .left _ _ fewer
    · rw [equal]
      exact .right _ less

/-- The rest of the search from a state that lies within what the roots lead to. -/
def run [Std.TransCmp cmp] {roots : List α} {successors : α → List α}
    (finite : FinitelyReachable roots successors) (s : Sorter α cmp)
    (within : s.Within roots successors) : Except (List α) (List α) :=
  -- Either a new node is marked, or none is and fewer looks remain.
  match stepped : s.step successors with
  | .finished order => .ok order
  | .loop nodes => .error nodes
  | .next t => run finite t (within_of_step within stepped)
termination_by (s.unmarked finite.choose, s.remaining)
decreasing_by
  exact lex_of_step within (fun a reached => ⟨a, finite.choose_spec a reached,
    Std.ReflCmp.compare_self⟩) stepped

end Sorter

/-- The nodes that `roots` lead to, each after all of its successors; or else the first loop met,
from its smallest node around to that node again. -/
def sort (cmp : α → α → Ordering) [Std.TransCmp cmp] (roots : List α) (successors : α → List α)
    (finite : FinitelyReachable roots successors) : Except (List α) (List α) :=
  -- The search begins with no node met and nothing listed.
  Sorter.run finite ({ roots } : Sorter α cmp) ⟨fun _ given => .root given, by simp⟩

end BuildGraph.DepthFirst
