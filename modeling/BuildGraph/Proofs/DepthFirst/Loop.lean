import Mathlib.Data.List.Cycle
import Mathlib.Data.List.TakeWhile
import BuildGraph.Proofs.DepthFirst.TopologicalOrder

/-! The loop that a depth-first search stops at is one: every node of it leads to the next one, no
node comes twice, and it runs from its smallest node around to that node again. -/

namespace BuildGraph.DepthFirst

open Relation

universe u

variable {α : Type u} {cmp : α → α → Ordering} {roots : List α} {successors : α → List α}

/-- A node is among the successors of another, in whatever spelling. -/
def Follows (cmp : α → α → Ordering) (successors : α → List α) (a b : α) : Prop :=
  -- The spelling of the first node is its own, and that of the second is free.
  ∃ c ∈ successors a, cmp b c = .eq

/-- A loop that some roots lead to, from its smallest node around to that node again. -/
structure Loop (cmp : α → α → Ordering) (roots : List α) (successors : α → List α)
    (nodes : List α) : Prop where
  two_le : 2 ≤ nodes.length
  closed : nodes.head? = nodes.getLast?
  edges : nodes.IsChain (Follows cmp successors)
  -- The first node stands at the end again, and no other is repeated.
  distinct : nodes.dropLast.Pairwise fun a b => cmp a b ≠ .eq
  reachable : ∀ a ∈ nodes, Reachable roots successors a
  smallest : ∀ first ∈ nodes.head?, ∀ a ∈ nodes.tail.dropLast, cmp first a = .lt

/-- Where only equal nodes compare equal, a loop is a walk along successors as they are. -/
theorem Loop.walk [Std.LawfulEqCmp cmp] {nodes : List α} (loop : Loop cmp roots successors nodes) :
    Walk successors nodes := by
  -- The induction is on the nodes; two of them at a time are joined.
  have edges := loop.edges
  clear loop
  induction edges with
  | nil => trivial
  | singleton => trivial
  | cons_cons next _ ih =>
    obtain ⟨c, member, same⟩ := next
    obtain rfl := Std.LawfulEqCmp.eq_of_compare same
    exact ⟨member, ih⟩

section Turned

variable [Std.TransCmp cmp]

/-- The smallest node is one of the nodes, and none is smaller. -/
theorem smallest_spec (cmp : α → α → Ordering) [Std.TransCmp cmp] (first : α) (rest : List α) :
    smallest cmp first rest ∈ first :: rest ∧
      ∀ a ∈ first :: rest, (cmp (smallest cmp first rest) a).isLE = true := by
  -- The induction is on the nodes that are still to be compared with the smallest one so far.
  induction rest generalizing first with
  | nil => simp [smallest, Std.ReflCmp.compare_self]
  | cons a rest ih =>
    obtain ⟨member, below⟩ := ih (if cmp a first = .lt then a else first)
    have step : smallest cmp first (a :: rest) =
        smallest cmp (if cmp a first = .lt then a else first) rest := rfl
    rw [← step] at member below
    obtain ⟨least, others⟩ := List.forall_mem_cons.mp below
    split at least
    · rename_i less
      rw [if_pos less] at member
      refine ⟨.tail _ member, List.forall_mem_cons.mpr ⟨?_, List.forall_mem_cons.mpr
        ⟨least, others⟩⟩⟩
      exact Std.TransCmp.isLE_trans least (by simp [less])
    · rename_i more
      rw [if_neg more] at member
      have less : (cmp first a).isLE = true := by
        cases order : cmp first a with
        | gt => exact absurd (Std.OrientedCmp.gt_iff_lt.mp order) more
        | _ => rfl
      refine ⟨?_, List.forall_mem_cons.mpr ⟨least, List.forall_mem_cons.mpr
        ⟨Std.TransCmp.isLE_trans least less, others⟩⟩⟩
      rcases List.mem_cons.mp member with same | later
      · rw [same]
        exact .head _
      · exact .tail _ (.tail _ later)

/-- An open loop is closed once it is turned to begin with a node that no other is smaller than. -/
theorem exists_turned (cmp : α → α → Ordering) [Std.TransCmp cmp] {nodes : List α}
    (nonempty : nodes ≠ []) :
    ∃ first rest, closeFromSmallest cmp nodes = first :: (rest ++ [first]) ∧
      List.IsRotated nodes (first :: rest) ∧ ∀ a ∈ nodes, (cmp first a).isLE = true := by
  cases nodes with
  | nil => exact absurd rfl nonempty
  | cons first rest =>
    obtain ⟨member, below⟩ := smallest_spec cmp first rest
    simp only [closeFromSmallest, List.span_eq_takeWhile_dropWhile]
    generalize smallest cmp first rest = least at member below ⊢
    -- The nodes from the smallest one on come first, and those before it behind them.
    have parts := List.takeWhile_append_dropWhile (p := fun a => cmp a least != .eq)
      (l := first :: rest)
    cases found : (first :: rest).dropWhile fun a => cmp a least != .eq with
    | nil =>
      have other := List.dropWhile_eq_nil_iff.mp found least member
      simp [Std.ReflCmp.compare_self] at other
    | cons turn after =>
      have same : cmp turn least = .eq := by
        have stopped := List.head?_dropWhile_not (fun a => cmp a least != .eq) (first :: rest)
        simpa [found] using stopped
      rw [found] at parts
      generalize (first :: rest).takeWhile (fun a => cmp a least != .eq) = before at parts ⊢
      refine ⟨turn, after ++ before, by simp, ?_, fun a there => ?_⟩
      · rw [← parts, ← List.cons_append]
        exact List.isRotated_append
      · rw [Std.TransCmp.congr_left same]
        exact below a there

/-- The part of a way from a node on, in whatever spelling that is met there. -/
def since (cmp : α → α → Ordering) (way : List α) (a : α) : List α :=
  -- If the node does not occur, nothing is left.
  way.dropWhile fun b => cmp b a != .eq

/-- A way that ends at a node which leads back to a node of the way is part of a cycle from there
on. -/
theorem cycle_since {way : List α} {node a : α}
    (chain : way.IsChain fun b c => c ∈ successors b) (last : way.getLast? = some node)
    (next : a ∈ successors node) (met : ∃ b ∈ way, cmp b a = .eq) :
    since cmp way a ≠ [] ∧ Cycle.Chain (Follows cmp successors) (since cmp way a : Cycle α) := by
  have parts : _ ++ since cmp way a = way := List.takeWhile_append_dropWhile
  have stopped : match (since cmp way a).head? with
      | some b => (cmp b a != .eq) = false
      | none => True := List.head?_dropWhile_not _ way
  cases found : since cmp way a with
  | nil =>
    obtain ⟨b, member, same⟩ := met
    have other := List.dropWhile_eq_nil_iff.mp found b member
    simp [same] at other
  | cons first rest =>
    have same : cmp first a = .eq := by simpa [found] using stopped
    rw [found] at parts
    -- What is left is a chain that ends where the way does.
    have chained : (first :: rest).IsChain (Follows cmp successors) := by
      rw [← parts] at chain
      exact chain.right_of_append.imp fun b c member => ⟨c, member, Std.ReflCmp.compare_self⟩
    have ends : (first :: rest).getLast? = some node := by
      rw [← parts, List.getLast?_append] at last
      simpa [List.getLast?_cons] using last
    refine ⟨by simp, (Cycle.chain_coe_cons _ _ _).mpr ?_⟩
    rw [← List.cons_append]
    refine List.isChain_append.mpr ⟨chained, .singleton _, fun b at_end c at_start => ?_⟩
    rw [ends] at at_end
    cases at_end
    cases at_start
    exact ⟨a, next, same⟩

/-- Turned and closed, a cycle of distinct nodes that the roots lead to is a loop. -/
theorem Loop.of_cycle {nodes : List α} (nonempty : nodes ≠ [])
    (cycle : Cycle.Chain (Follows cmp successors) (nodes : Cycle α))
    (distinct : nodes.Pairwise fun a b => cmp a b ≠ .eq)
    (reached : ∀ a ∈ nodes, Reachable roots successors a) :
    Loop cmp roots successors (closeFromSmallest cmp nodes) := by
  obtain ⟨first, rest, closed, rotated, below⟩ := exists_turned cmp nonempty
  have members : ∀ a, a ∈ first :: rest ↔ a ∈ nodes := fun _ => rotated.perm.symm.mem_iff
  have apart : (first :: rest).Pairwise fun a b => cmp a b ≠ .eq :=
    rotated.perm.pairwise distinct fun other same => other (Std.OrientedCmp.eq_symm same)
  rw [closed]
  constructor
  · simp
  · simp [List.getLast?_cons]
  · rw [Cycle.coe_eq_coe.mpr rotated, Cycle.chain_coe_cons] at cycle
    simpa using cycle
  · rw [← List.cons_append, List.dropLast_concat]
    exact apart
  · intro a member
    refine reached a ((members a).mp ?_)
    simpa [or_comm] using member
  · -- No node is smaller than the first, and none of the others is equal to it.
    intro start at_start a later
    obtain rfl : first = start := by simpa using at_start
    simp only [List.tail_cons, List.dropLast_concat] at later
    have other := (List.pairwise_cons.mp apart).1 a later
    have least := below a ((members a).mp (.tail _ later))
    cases order : cmp first a with
    | lt => rfl
    | eq => exact absurd order other
    | gt => simp [order] at least

end Turned

namespace Sorter

/-- Frames, innermost first, each of which was entered from the one outside it, with nothing pending
but successors of their nodes. -/
structure Nested (successors : α → List α) (frames : List (Frame α)) : Prop where
  -- The chain goes outwards, so its links are turned around.
  entered : (frames.map Frame.node).IsChain fun inner outer => inner ∈ successors outer
  pending : ∀ f ∈ frames, ∀ a ∈ f.pending, a ∈ successors f.node

/-- The nodes being visited, outermost first. -/
def way (s : Sorter α cmp) : List α :=
  -- A loop is a part of this list, in this order.
  (s.frames.map Frame.node).reverse

variable [Std.TransCmp cmp] {s t : Sorter α cmp}

/-- Every turn of a search keeps frames nested. -/
theorem Nested.step (nested : Nested successors s.frames) (stepped : s.step successors = .next t) :
    Nested successors t.frames := by
  obtain ⟨entered, pending⟩ := nested
  cases turn stepped with
  | passRoot met => exact ⟨entered, pending⟩
  | enterRoot fresh => exact ⟨.singleton _, List.forall_mem_cons.mpr ⟨fun _ => id, pending⟩⟩
  | leave => exact ⟨entered.tail, (List.forall_mem_cons.mp pending).2⟩
  | pass visited =>
    obtain ⟨here, others⟩ := List.forall_mem_cons.mp pending
    exact ⟨entered, List.forall_mem_cons.mpr ⟨fun a later => here a (.tail _ later), others⟩⟩
  | enter fresh =>
    -- The pending node is entered from the frame that it waits at.
    obtain ⟨here, others⟩ := List.forall_mem_cons.mp pending
    exact ⟨.cons_cons (here _ (.head _)) entered, List.forall_mem_cons.mpr ⟨fun _ => id,
      List.forall_mem_cons.mpr ⟨fun a later => here a (.tail _ later), others⟩⟩⟩

/-- What holds of the frames of a search from some roots. -/
structure Traced (roots : List α) (successors : α → List α) (s : Sorter α cmp) : Prop where
  -- The four facts are kept together, as each step needs them all.
  marked : s.Marked (spelled cmp)
  nested : Nested successors s.frames
  within : s.Within roots successors
  keeps : s.Keeps roots successors

namespace Traced

/-- A search begins without frames. -/
theorem initial (roots : List α) (successors : α → List α) :
    ({ roots } : Sorter α cmp).Traced roots successors where
  -- Without frames there is nothing to be nested.
  marked := .initial roots
  nested := ⟨.nil, by simp⟩
  within := ⟨fun _ => .root, by simp⟩
  keeps := ⟨by simp, by simp⟩

/-- Every turn of a search keeps this. -/
theorem step (traced : s.Traced roots successors) (stepped : s.step successors = .next t) :
    t.Traced roots successors where
  -- Each field is kept for a reason of its own.
  marked := traced.marked.step compare_eq_iff_spelled stepped
  nested := traced.nested.step stepped
  within := within_of_step traced.within stepped
  keeps := traced.keeps.step traced.within stepped

/-- Each node being visited is a successor of the one outside it. -/
theorem chain_way (traced : s.Traced roots successors) :
    s.way.IsChain fun b c => c ∈ successors b :=
  -- The way is read from the outermost frame, and the nesting from the innermost.
  List.isChain_reverse.mpr traced.nested.entered

/-- No node is being visited twice. -/
theorem nodup_way (traced : s.Traced roots successors) : (s.way.map (spelled cmp)).Nodup := by
  -- The way is part of what is marked, and that has no node twice.
  rw [way, List.map_reverse, List.map_map]
  exact List.nodup_reverse.mpr (List.nodup_append.mp traced.marked.distinct).1

/-- The nodes being visited are reachable. -/
theorem reachable_way (traced : s.Traced roots successors) :
    ∀ a ∈ s.way, Reachable roots successors a := by
  -- A node on the way has a frame, and all frames are within reach.
  intro a member
  obtain ⟨f, there, rfl⟩ := List.mem_map.mp (List.mem_reverse.mp member)
  exact traced.keeps.1 f there

/-- Where the innermost node leads back to one that is being visited, a loop is closed. -/
theorem loop_at (traced : s.Traced roots successors) {node a : α}
    (innermost : s.way.getLast? = some node) (next : a ∈ successors node)
    (visiting : s.marks[a]? = some .visiting) : Loop cmp roots successors (s.loopAt a) := by
  have met : ∃ b ∈ s.way, cmp b a = .eq := by
    obtain ⟨f, member, same⟩ := List.mem_map.mp ((traced.marked.visiting a).mp visiting)
    exact ⟨f.node, List.mem_reverse.mpr (List.mem_map_of_mem member),
      (compare_eq_iff_spelled _ _).mpr same⟩
  -- The cycle is the part of the way from there on, so that nodes leading into it are left out.
  obtain ⟨nonempty, cycle⟩ := cycle_since traced.chain_way innermost next met
  have part : (since cmp s.way a).Sublist s.way := List.dropWhile_sublist _
  have distinct : s.way.Pairwise fun b c => cmp b c ≠ .eq :=
    (List.pairwise_map.mp traced.nodup_way).imp fun other same =>
      other ((compare_eq_iff_spelled _ _).mp same)
  exact .of_cycle nonempty cycle (distinct.sublist part) fun b member =>
    traced.reachable_way b (part.mem member)

/-- What a search stops at is a loop. -/
theorem loop (traced : s.Traced roots successors) {nodes : List α}
    (stepped : s.step successors = .loop nodes) : Loop cmp roots successors nodes := by
  -- The step stops where a successor of the innermost node is being visited.
  cases turn stepped with
  | loop visiting =>
    exact traced.loop_at (by simp [way]) (traced.nested.pending _ (.head _) _ (.head _)) visiting

end Traced

end Sorter

/-- A search from some roots stops at a loop only. -/
theorem Sorter.Yields.isLoop [Std.TransCmp cmp] {nodes : List α}
    (search : Sorter.Yields successors ({ roots } : Sorter α cmp) (.error nodes)) :
    Loop cmp roots successors nodes := by
  -- What every turn keeps holds before the last one, which stops at the loop.
  obtain ⟨t, traced, _, looped⟩ := search.last (Sorter.Traced roots successors)
    (fun _ _ traced stepped => traced.step stepped) (.initial roots successors)
  exact traced.loop (looped nodes rfl)

/-- A sort stops at a loop only. -/
theorem loop_of_sort [Std.TransCmp cmp] {finite : FinitelyReachable roots successors}
    {nodes : List α} (stopped : sort cmp roots successors finite = .error nodes) :
    Loop cmp roots successors nodes := by
  -- A run is a search, and a search that stops has met a loop.
  have search := Sorter.yields_run finite ({ roots } : Sorter α cmp) ⟨fun _ => .root, by simp⟩
  have ended : Sorter.run finite ({ roots } : Sorter α cmp) _ = .error nodes := stopped
  exact (ended ▸ search).isLoop

/-- Whatever the roots and whatever they lead to, what a search stops at is a loop among the nodes
that the roots lead to; and where only equal nodes compare equal, it is a walk along the successors
as they are given. -/
theorem stops_at_loop (cmp : α → α → Ordering) [Std.TransCmp cmp] (roots : List α)
    (successors : α → List α) (nodes : List α)
    -- A search may stop also where the roots lead to more than finitely many nodes.
    (stopped : Sorter.Yields successors ({ roots } : Sorter α cmp) (.error nodes) ∨
      ∃ finite, sort cmp roots successors finite = .error nodes) :
    Loop cmp roots successors nodes ∧ (Std.LawfulEqCmp cmp → Walk successors nodes) := by
  have loop : Loop cmp roots successors nodes := by
    rcases stopped with search | ⟨finite, sorted⟩
    · exact search.isLoop
    · exact loop_of_sort sorted
  exact ⟨loop, fun _ => loop.walk⟩

namespace Sample

/-- An application that leads into a loop of libraries. -/
def tangled : SortedMap String (List String) :=
  -- The loop is entered at a node that is not its smallest one.
  .ofList [("app", ["net"]), ("net", ["tls"]), ("tls", ["core"]), ("core", ["net"])]

end Sample

/-- The application is no part of the loop, which begins with the smallest library. -/
theorem stops_at_loop_of_sample :
    sort compare ["app"] Sample.tangled.successors
        (finitelyReachable_successors ["app"] Sample.tangled) =
      .error ["core", "net", "tls", "core"] ∧
    Loop compare ["app"] Sample.tangled.successors ["core", "net", "tls", "core"] ∧
    Walk Sample.tangled.successors ["core", "net", "tls", "core"] := by
  -- The search is followed to the loop, and the general statement tells what it is.
  have ended : ({ roots := ["app"] } : Sorter String compare).within
      Sample.tangled.successors 20 = some (.error ["core", "net", "tls", "core"]) := rfl
  have stopped : sort compare ["app"] Sample.tangled.successors
      (finitelyReachable_successors ["app"] Sample.tangled) =
      .error ["core", "net", "tls", "core"] := sort_of_within ended
  obtain ⟨loop, walk⟩ := stops_at_loop compare ["app"] Sample.tangled.successors
    ["core", "net", "tls", "core"] (.inr ⟨_, stopped⟩)
  exact ⟨stopped, loop, walk inferInstance⟩

end BuildGraph.DepthFirst
