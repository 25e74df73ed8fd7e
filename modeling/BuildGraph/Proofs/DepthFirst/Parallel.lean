import BuildGraph.Proofs.DepthFirst
import BuildGraph.Proofs.Matching
import Mathlib.Data.List.TakeDrop

/-! Two depth-first searches go the same way among nodes that correspond, as long as these compare
and lead to each other alike. -/

namespace BuildGraph.DepthFirst

universe u

variable {α β : Type u} {cmp : α → α → Ordering} {cmp' : β → β → Ordering} {R : α → β → Prop}

/-- The smallest nodes of corresponding lists correspond. -/
theorem smallest_parallel (agree : Agree R cmp cmp') {first : α} {first' : β} {rest : List α}
    {rest' : List β} (same : R first first') (others : List.Forall₂ R rest rest') :
    R (smallest cmp first rest) (smallest cmp' first' rest') := by
  -- The induction is on the rest, and each comparison comes out the same on both sides.
  induction others generalizing first first' with
  | nil => exact same
  | @cons a a' rest rest' pair _ ih =>
    rw [smallest, smallest, List.foldl_cons, List.foldl_cons, agree pair same]
    split
    · exact ih pair
    · exact ih same

/-- Corresponding loops are turned and closed alike. -/
theorem closeFromSmallest_parallel (agree : Agree R cmp cmp') {nodes : List α} {nodes' : List β}
    (same : List.Forall₂ R nodes nodes') :
    List.Forall₂ R (closeFromSmallest cmp nodes) (closeFromSmallest cmp' nodes') := by
  cases same with
  | nil => exact .nil
  | @cons first first' rest rest' pair others =>
    have least := smallest_parallel agree pair others
    -- Both loops are turned at their smallest nodes.
    have other : ∀ a a', R a a' → (cmp a (smallest cmp first rest) != .eq) =
        (cmp' a' (smallest cmp' first' rest') != .eq) := by
      intro a a' also
      rw [agree also least]
    have whole := List.Forall₂.cons pair others
    have turned := List.rel_append (forall₂_dropWhile other whole) (forall₂_takeWhile other whole)
    simp only [closeFromSmallest, List.span_eq_takeWhile_dropWhile]
    exact List.rel_append turned (List.forall₂_take 1 turned)

/-- Two searches stand at corresponding places. -/
structure Sorter.Parallel (R : α → β → Prop) (s : Sorter α cmp) (t : Sorter β cmp') : Prop where
  -- The frames correspond one by one, with what is pending in them.
  roots : List.Forall₂ R s.roots t.roots
  frames : List.Forall₂ (fun f g => R f.node g.node ∧ List.Forall₂ R f.pending g.pending)
    s.frames t.frames
  marks : ∀ a a', R a a' → s.marks[a]? = t.marks[a']?
  order : List.Forall₂ R s.order t.order

/-- Two turns come to corresponding ends, or leave the searches at corresponding places. -/
def Step.Parallel (R : α → β → Prop) : Step α cmp → Step β cmp' → Prop
  -- Ends of different kinds never correspond.
  | .finished order, .finished order' => List.Forall₂ R order order'
  | .loop nodes, .loop nodes' => List.Forall₂ R nodes nodes'
  | .next s, .next t => s.Parallel R t
  | _, _ => False

namespace Sorter.Parallel

variable {s : Sorter α cmp} {t : Sorter β cmp'} {successors : α → List α}
  {successors' : β → List β} {a : α} {a' : β}

/-- The loops back to corresponding nodes correspond. -/
theorem loopAt (agree : Agree R cmp cmp') (along : s.Parallel R t) (same : R a a') :
    List.Forall₂ R (s.loopAt a) (t.loopAt a') := by
  -- The nodes on the way correspond, outermost first.
  have nodes : List.Forall₂ R (s.frames.map Frame.node).reverse
      (t.frames.map Frame.node).reverse :=
    List.rel_reverse (List.rel_map (fun _ _ pair => pair.1) along.frames)
  have other : ∀ b b', R b b' → (cmp b a != .eq) = (cmp' b' a' != .eq) := by
    intro b b' pair
    rw [agree pair same]
  exact closeFromSmallest_parallel agree (forall₂_dropWhile other nodes)

variable [Std.TransCmp cmp] [Std.TransCmp cmp'] (agree : Agree R cmp cmp')
  (edges : ∀ a a', R a a' → List.Forall₂ R (successors a) (successors' a'))

include agree in
/-- Marks on corresponding nodes show alike. -/
theorem marks_insert (along : s.Parallel R t) (same : R a a') (m : Mark) (b : α) (b' : β)
    (pair : R b b') : (s.marks.insert a m)[b]? = (t.marks.insert a' m)[b']? := by
  -- Keys that correspond compare alike, so that the new mark is seen on both sides or on neither.
  rw [Std.TreeMap.getElem?_insert, Std.TreeMap.getElem?_insert, agree same pair,
    along.marks _ _ pair]

include agree edges in
/-- Searches that enter corresponding nodes go on at corresponding places. -/
theorem enter (along : s.Parallel R t) (same : R a a') :
    (s.enter successors a).Parallel R (t.enter successors' a') where
  -- Nothing but the frames and the marks changes.
  roots := along.roots
  frames := .cons ⟨same, edges _ _ same⟩ along.frames
  marks := along.marks_insert agree same .visiting
  order := along.order

include agree edges in
/-- At corresponding places, both searches take the same turn. -/
theorem step (along : s.Parallel R t) :
    (s.step successors).Parallel R (t.step successors') := by
  -- The cases are those of the turn, and both searches fall into the same ones.
  obtain ⟨roots, frames, marks, order⟩ := s
  obtain ⟨roots', frames', marks', order'⟩ := t
  obtain ⟨sameRoots, sameFrames, sameMarks, sameOrder⟩ := along
  simp only at sameRoots sameFrames sameMarks sameOrder
  cases sameFrames with
  | nil =>
    cases sameRoots with
    | nil => exact List.rel_reverse sameOrder
    | @cons root root' rest rest' pair others =>
      have met : marks.contains root = marks'.contains root' := by
        rw [← Std.TreeMap.isSome_getElem?_eq_contains, sameMarks _ _ pair,
          Std.TreeMap.isSome_getElem?_eq_contains]
      have along : Sorter.Parallel R (⟨rest, [], marks, order⟩ : Sorter α cmp)
          (⟨rest', [], marks', order'⟩ : Sorter β cmp') := ⟨others, .nil, sameMarks, sameOrder⟩
      simp only [Sorter.step, met]
      split
      -- A root that is met is passed over on both sides, and a new one is entered.
      · exact along
      · exact along.enter agree edges pair
  | @cons f g outer outer' pair others =>
    obtain ⟨node, pending⟩ := f
    obtain ⟨node', pending'⟩ := g
    obtain ⟨same, todo⟩ := pair
    simp only at same todo
    cases todo with
    | nil =>
      have along : Sorter.Parallel R (⟨roots, outer, marks, order⟩ : Sorter α cmp)
          (⟨roots', outer', marks', order'⟩ : Sorter β cmp') :=
        ⟨sameRoots, others, sameMarks, sameOrder⟩
      -- The node is listed on both sides.
      exact ⟨sameRoots, others, along.marks_insert agree same .visited, .cons same sameOrder⟩
    | @cons a a' pending pending' next later =>
      have along : Sorter.Parallel R
          (⟨roots, ⟨node, pending⟩ :: outer, marks, order⟩ : Sorter α cmp)
          (⟨roots', ⟨node', pending'⟩ :: outer', marks', order'⟩ : Sorter β cmp') :=
        ⟨sameRoots, .cons ⟨same, later⟩ others, sameMarks, sameOrder⟩
      simp only [Sorter.step, sameMarks _ _ next]
      split
      -- The marks agree, so that both sides pass the node over, stop at it or enter it.
      · exact along
      · exact along.loopAt agree next
      · exact along.enter agree edges next

include agree edges in
/-- From corresponding places, both searches come to matching results. -/
theorem yields (along : s.Parallel R t) {result : Except (List α) (List α)}
    (search : Yields successors s result) : ∃ result', Yields successors' t result' ∧
      Matching (List.Forall₂ R) (List.Forall₂ R) result result' := by
  -- The induction follows the first search, turn by turn.
  induction search generalizing t with
  | finished stepped =>
    have turn := along.step agree edges
    rw [stepped] at turn
    cases stepped' : t.step successors' with
    | finished order' =>
      rw [stepped'] at turn
      exact ⟨_, .finished stepped', .ok turn⟩
    | _ => simp [stepped', Step.Parallel] at turn
  | loop stepped =>
    have turn := along.step agree edges
    rw [stepped] at turn
    cases stepped' : t.step successors' with
    | loop nodes' =>
      rw [stepped'] at turn
      exact ⟨_, .loop stepped', .error turn⟩
    | _ => simp [stepped', Step.Parallel] at turn
  | next stepped _ ih =>
    have turn := along.step agree edges
    rw [stepped] at turn
    cases stepped' : t.step successors' with
    | next t' =>
      rw [stepped'] at turn
      obtain ⟨result', search, matching⟩ := ih turn
      exact ⟨result', .next stepped' search, matching⟩
    | _ => simp [stepped', Step.Parallel] at turn

end Sorter.Parallel

/-- Sorting corresponding nodes comes to matching results. -/
theorem sort_parallel [Std.TransCmp cmp] [Std.TransCmp cmp'] (agree : Agree R cmp cmp')
    {roots : List α} {roots' : List β} (start : List.Forall₂ R roots roots')
    {successors : α → List α} {successors' : β → List β}
    (edges : ∀ a a', R a a' → List.Forall₂ R (successors a) (successors' a'))
    (finite : FinitelyReachable roots successors)
    (finite' : FinitelyReachable roots' successors') :
    Matching (List.Forall₂ R) (List.Forall₂ R) (sort cmp roots successors finite)
      (sort cmp' roots' successors' finite') := by
  -- Both searches begin alike, and a search has one result.
  have along : Sorter.Parallel R ({ roots } : Sorter α cmp)
      ({ roots := roots' } : Sorter β cmp') := ⟨start, .nil, by simp, .nil⟩
  have search := Sorter.yields_run finite ({ roots } : Sorter α cmp) ⟨fun _ => .root, by simp⟩
  obtain ⟨_, search', matching⟩ := along.yields agree edges search
  have once := (Sorter.yields_run finite' ({ roots := roots' } : Sorter β cmp')
    ⟨fun _ => .root, by simp⟩).unique search'
  rwa [← once] at matching

end BuildGraph.DepthFirst
