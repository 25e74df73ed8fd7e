import BuildGraph.Proofs.DepthFirst.Loop

/-! A depth-first search that keeps its frames itself comes to what a recursive one comes to, in the
same order and with the same loop. -/

namespace BuildGraph.DepthFirst

universe u

variable {α : Type u} {cmp : α → α → Ordering} {roots : List α} {successors : α → List α}

/-- Some spelling of a node is one of the nodes. -/
def among (cmp : α → α → Ordering) (nodes : List α) (a : α) : Bool :=
  -- Membership up to spelling.
  nodes.any fun b => cmp b a == .eq

/-- A node is met where some spelling of it is. -/
theorem among_iff {nodes : List α} {a : α} :
    among cmp nodes a = true ↔ ∃ b ∈ nodes, cmp b a = .eq := by
  -- The nodes are gone through one by one.
  simp [among]

/-- A node is met where its class is. -/
theorem among_iff_spelled [Std.TransCmp cmp] {nodes : List α} {a : α} :
    among cmp nodes a = true ↔ spelled cmp a ∈ nodes.map (spelled cmp) := by
  -- A class is that of a node where the two compare equal.
  simp only [among_iff, List.mem_map, compare_eq_iff_spelled]

/-- One more node on a path leaves fewer of the nodes off it. -/
theorem countP_among_lt [Std.ReflCmp cmp] {path nodes : List α} {a : α} (member : a ∈ nodes)
    (fresh : ¬ among cmp path a = true) :
    (nodes.countP fun b => !among cmp (path ++ [a]) b) <
      nodes.countP fun b => !among cmp path b := by
  -- Nodes that are off the longer path are off the shorter one, and the new one is not.
  refine countP_lt_countP (fun b free => ?_) member (by simpa using fresh) ?_
  · simp only [among, List.any_append, Bool.not_or, Bool.and_eq_true] at free
    exact free.1
  · simp [among, Std.ReflCmp.compare_self]

variable [Std.TransCmp cmp]

mutual

/-- The recursive search from a node that a path leads to, behind what is listed so far: a listed
node is skipped, a node of the path closes a loop, and any other is listed behind all that is found
below it. -/
def visit (cmp : α → α → Ordering) [Std.TransCmp cmp] (finite : FinitelyReachable roots successors)
    (path listed : List α) (a : α) (reached : Reachable roots successors a) :
    Except (List α) (List α) :=
  -- The path only grows on the way down, so nodes that are not on it become fewer.
  if among cmp listed a then .ok listed
  else if among cmp path a then .error (since cmp path a)
  else do
    let below ← visitEach cmp finite (path ++ [a]) listed (successors a) fun _ => .step reached
    return below ++ [a]
termination_by (finite.choose.countP fun b => !among cmp path b, 0)
decreasing_by
  rename_i fresh
  exact .left _ _ (countP_among_lt (finite.choose_spec a reached) fresh)

/-- The recursive search from some nodes that a path leads to, one after another. -/
def visitEach (cmp : α → α → Ordering) [Std.TransCmp cmp]
    (finite : FinitelyReachable roots successors) (path listed : List α) :
    (nodes : List α) → (∀ a ∈ nodes, Reachable roots successors a) → Except (List α) (List α)
  -- What an earlier node has listed is skipped below a later one.
  | [], _ => .ok listed
  | a :: rest, reached => do
    let below ← visit cmp finite path listed a (reached a (.head _))
    visitEach cmp finite path below rest fun b later => reached b (.tail _ later)
termination_by nodes => (finite.choose.countP fun b => !among cmp path b, nodes.length)
decreasing_by
  · exact .right _ (Nat.succ_pos _)
  · exact .right _ (Nat.lt_succ_self _)

end

/-- The recursive search from the roots, with nothing on the path to them. -/
def sortRecursively (cmp : α → α → Ordering) [Std.TransCmp cmp] (roots : List α)
    (successors : α → List α) (finite : FinitelyReachable roots successors) :
    Except (List α) (List α) :=
  -- The roots count like the successors of a node that is not there.
  visitEach cmp finite [] [] roots fun _ => .root

section Visit

variable {finite : FinitelyReachable roots successors} {path listed : List α} {a : α}
  {rest : List α} {reached : ∀ b ∈ a :: rest, Reachable roots successors b}

/-- A listed node is skipped. -/
theorem visitEach_listed (done : among cmp listed a = true) :
    visitEach cmp finite path listed (a :: rest) reached =
      visitEach cmp finite path listed rest fun b later => reached b (.tail _ later) := by
  -- The first question is whether a node is listed.
  rw [visitEach, visit, if_pos done, ok_bind]

/-- A node of the path closes a loop. -/
theorem visitEach_looped (unlisted : ¬ among cmp listed a = true)
    (looped : among cmp path a = true) :
    visitEach cmp finite path listed (a :: rest) reached = .error (since cmp path a) := by
  -- The second question is whether a node is on the path.
  rw [visitEach, visit, if_neg unlisted, if_pos looped, error_bind]

/-- Any other node is listed behind all that is found below it. -/
theorem visitEach_fresh (unlisted : ¬ among cmp listed a = true)
    (fresh : ¬ among cmp path a = true) :
    visitEach cmp finite path listed (a :: rest) reached =
      visitEach cmp finite (path ++ [a]) listed (successors a)
          (fun _ => .step (reached a (.head _))) >>= fun below =>
        visitEach cmp finite path (below ++ [a]) rest fun b later => reached b (.tail _ later) := by
  -- Both questions have been answered with no.
  rw [visitEach, visit, if_neg unlisted, if_neg fresh, bind_assoc]
  rfl

end Visit

namespace Sorter

variable {s t : Sorter α cmp} {finite : FinitelyReachable roots successors}

/-- The nodes that are marked as visited are those that are listed. -/
theorem Marked.among_order_iff (marked : s.Marked (spelled cmp)) (a : α) :
    among cmp s.order.reverse a = true ↔ s.marks[a]? = some .visited := by
  -- The list is kept from its end, which does not matter for what is in it.
  rw [among_iff_spelled, marked.visited, List.map_reverse, List.mem_reverse]
  rfl

/-- The nodes that are marked as being visited are those on the way. -/
theorem Marked.among_way_iff (marked : s.Marked (spelled cmp)) (a : α) :
    among cmp s.way a = true ↔ s.marks[a]? = some .visiting := by
  -- The way is kept from its end, which does not matter for what is on it.
  rw [among_iff_spelled, marked.visiting, way, List.map_reverse, List.mem_reverse, List.map_map]
  rfl

/-- What the recursive search comes to from within some frames: it goes on below the innermost one,
lists its node, and returns to the frame outside it. -/
def unwind (cmp : α → α → Ordering) [Std.TransCmp cmp]
    (finite : FinitelyReachable roots successors) (todo : List α)
    (start : ∀ a ∈ todo, Reachable roots successors a) (listed : List α) :
    (frames : List (Frame α)) → (∀ f ∈ frames, ∀ a ∈ f.pending, Reachable roots successors a) →
      Except (List α) (List α)
  -- The frames outside are what the recursion would return to.
  | [], _ => visitEach cmp finite [] listed todo start
  | f :: outer, within => do
    let below ← visitEach cmp finite ((f :: outer).map Frame.node).reverse listed f.pending
      (within f (.head _))
    unwind cmp finite todo start (below ++ [f.node]) outer fun g there => within g (.tail _ there)

section Unwind

variable {todo listed pending : List α} {start : ∀ b ∈ todo, Reachable roots successors b}
  {node a : α} {outer : List (Frame α)}

/-- A frame is left once nothing is pending there. -/
theorem unwind_left
    {within : ∀ f ∈ (⟨node, []⟩ :: outer : List (Frame α)), ∀ b ∈ f.pending,
      Reachable roots successors b} :
    unwind cmp finite todo start listed (⟨node, []⟩ :: outer) within =
      unwind cmp finite todo start (listed ++ [node]) outer fun f there =>
        within f (.tail _ there) := by
  -- There is nothing to visit before the node is listed.
  rw [unwind, visitEach, ok_bind]

variable {within : ∀ f ∈ (⟨node, a :: pending⟩ :: outer : List (Frame α)), ∀ b ∈ f.pending,
      Reachable roots successors b}
  {turned : ∀ f ∈ (⟨node, pending⟩ :: outer : List (Frame α)), ∀ b ∈ f.pending,
      Reachable roots successors b}

/-- A pending node that is listed is passed over. -/
theorem unwind_listed (done : among cmp listed a = true) :
    unwind cmp finite todo start listed (⟨node, a :: pending⟩ :: outer) within =
      unwind cmp finite todo start listed (⟨node, pending⟩ :: outer) turned := by
  -- Visiting the node first changes nothing.
  rw [unwind, unwind, visitEach_listed done]
  rfl

/-- A pending node that is on the way closes a loop. -/
theorem unwind_looped (unlisted : ¬ among cmp listed a = true)
    (looped : among cmp ((⟨node, a :: pending⟩ :: outer).map Frame.node).reverse a = true) :
    unwind cmp finite todo start listed (⟨node, a :: pending⟩ :: outer) within =
      .error (since cmp ((⟨node, a :: pending⟩ :: outer).map Frame.node).reverse a) := by
  -- Visiting the node first fails, and nothing comes behind that.
  rw [unwind, visitEach_looped unlisted looped, error_bind]

/-- From any other pending node the search goes on in a frame of its own. -/
theorem unwind_fresh (unlisted : ¬ among cmp listed a = true)
    (fresh : ¬ among cmp ((⟨node, a :: pending⟩ :: outer).map Frame.node).reverse a = true)
    {entered : ∀ f ∈ (⟨a, successors a⟩ :: ⟨node, pending⟩ :: outer : List (Frame α)),
      ∀ b ∈ f.pending, Reachable roots successors b} :
    unwind cmp finite todo start listed (⟨node, a :: pending⟩ :: outer) within =
      unwind cmp finite todo start listed (⟨a, successors a⟩ :: ⟨node, pending⟩ :: outer)
        entered := by
  -- Below the new frame the way is longer by its node, and behind it the search returns.
  rw [unwind, visitEach_fresh unlisted fresh, unwind, bind_assoc]
  simp only [unwind, List.map_cons, List.reverse_cons]

end Unwind

/-- What the recursive search comes to from where a search stands. -/
def resume (finite : FinitelyReachable roots successors) (s : Sorter α cmp)
    (within : s.Within roots successors) : Except (List α) (List α) :=
  -- The list is kept latest first by the search, and in order by the recursion.
  unwind cmp finite s.roots within.1 s.order.reverse s.frames within.2

/-- Every turn of a search leaves to the recursive one what it came to before. -/
theorem resume_step (marked : s.Marked (spelled cmp)) (within : s.Within roots successors)
    (stepped : s.step successors = .next t) :
    s.resume finite within = t.resume finite (within_of_step within stepped) := by
  -- The recursive search looks at the same node, and where that is shows in its mark.
  have done := marked.among_order_iff
  have entered := marked.among_way_iff
  cases turn stepped with
  | @passRoot root todo marks order met =>
    -- With no frames, a root that has been met is listed.
    have listed : among cmp order.reverse root = true := by
      rw [done]
      cases mark : marks[root]? with
      | none => exact absurd mark met
      | some mark' =>
        cases mark' with
        | visited => rfl
        | visiting => simpa [way, among] using (entered root).mpr mark
    exact visitEach_listed listed
  | @enterRoot root todo marks order fresh =>
    have unlisted : ¬ among cmp order.reverse root = true := by simp [done, fresh]
    exact visitEach_fresh unlisted (by simp [among])
  | @leave node todo outer marks order =>
    simp only [resume, unwind_left, List.reverse_cons]
  | @pass node a todo pending outer marks order visited =>
    exact unwind_listed ((done a).mpr visited)
  | @enter node a todo pending outer marks order fresh =>
    have unlisted : ¬ among cmp order.reverse a = true := by simp [done, fresh]
    exact unwind_fresh unlisted fun there => by simpa [fresh] using (entered a).mp there

/-- A search that finishes has listed what the recursive one does. -/
theorem resume_finished (within : s.Within roots successors) {order : List α}
    (stepped : s.step successors = .finished order) : s.resume finite within = .ok order := by
  -- At the end there is nothing to visit.
  cases turn stepped with
  | finish => simp only [resume, unwind, visitEach]

/-- A search that stops has met the loop that the recursive one stops at. -/
theorem resume_loop (marked : s.Marked (spelled cmp)) (within : s.Within roots successors)
    {nodes : List α} (stepped : s.step successors = .loop nodes) :
    (s.resume finite within).mapError (closeFromSmallest cmp) = .error nodes := by
  -- The node is marked as being visited, so that it is on the path of the recursive search, too.
  have done := marked.among_order_iff
  have entered := marked.among_way_iff
  cases turn stepped with
  | @loop node a todo pending outer marks order visiting =>
    have unlisted : ¬ among cmp order.reverse a = true := by simp [done, visiting]
    rw [resume, unwind_looped unlisted ((entered a).mpr visiting)]
    rfl

/-- What a search yields is what the recursive one comes to from where it begins. -/
theorem Yields.resume {result : Except (List α) (List α)}
    (search : Yields successors s result) (marked : s.Marked (spelled cmp))
    (within : s.Within roots successors) :
    (s.resume finite within).mapError (closeFromSmallest cmp) = result := by
  -- By induction on the turns, each of which leaves the result as it was.
  induction search with
  | finished stepped =>
    rw [resume_finished within stepped]
    rfl
  | loop stepped => exact resume_loop marked within stepped
  | next stepped _ ih =>
    rw [resume_step marked within stepped]
    exact ih (marked.step compare_eq_iff_spelled stepped) (within_of_step within stepped)

end Sorter

/-- Whatever the roots, and whatever they lead to in finitely many nodes, the sort comes to the
order that the recursive search lists, or to the very loop that it stops at, turned to begin with
the smallest node and closed. -/
theorem sort_eq_recursive (cmp : α → α → Ordering) [Std.TransCmp cmp] (roots : List α)
    (successors : α → List α) (finite : FinitelyReachable roots successors) :
    sort cmp roots successors finite =
      (sortRecursively cmp roots successors finite).mapError (closeFromSmallest cmp) ∧
    ∀ loop, sortRecursively cmp roots successors finite = .error loop →
      ∃ first rest, closeFromSmallest cmp loop = first :: (rest ++ [first]) ∧
        List.IsRotated loop (first :: rest) ∧ ∀ a ∈ loop, (cmp first a).isLE = true := by
  have within : ({ roots } : Sorter α cmp).Within roots successors := ⟨fun _ => .root, by simp⟩
  have same : (sortRecursively cmp roots successors finite).mapError (closeFromSmallest cmp) =
      sort cmp roots successors finite :=
    (Sorter.yields_run finite ({ roots } : Sorter α cmp) within).resume (.initial roots) within
  refine ⟨same.symm, fun loop stopped => exists_turned cmp ?_⟩
  -- The sort stops there too, so that the loop is one and has some nodes.
  rintro rfl
  rw [stopped] at same
  have empty := (loop_of_sort same.symm).two_le
  simp [closeFromSmallest] at empty

/-- The recursive search stops where the last library leads back to the first one met, and the sort
shows that loop from its smallest library on. -/
theorem sort_eq_recursive_of_sample :
    sortRecursively compare ["app"] Sample.tangled.successors
        (finitelyReachable_successors ["app"] Sample.tangled) = .error ["net", "tls", "core"] ∧
    sort compare ["app"] Sample.tangled.successors
        (finitelyReachable_successors ["app"] Sample.tangled) =
      .error ["core", "net", "tls", "core"] := by
  have stopped : sortRecursively compare ["app"] Sample.tangled.successors
      (finitelyReachable_successors ["app"] Sample.tangled) = .error ["net", "tls", "core"] := by
    -- Each node leads to one other, which is below it.
    have app : Sample.tangled.successors "app" = ["net"] := by decide
    have net : Sample.tangled.successors "net" = ["tls"] := by decide
    have tls : Sample.tangled.successors "tls" = ["core"] := by decide
    have core : Sample.tangled.successors "core" = ["net"] := by decide
    rw [sortRecursively, visitEach_fresh (by decide) (by decide)]
    simp only [app]
    rw [visitEach_fresh (by decide) (by decide)]
    simp only [net]
    rw [visitEach_fresh (by decide) (by decide)]
    simp only [tls]
    rw [visitEach_fresh (by decide) (by decide)]
    simp only [core]
    rw [visitEach_looped (by decide) (by decide)]
    rfl
  obtain ⟨same, _⟩ := sort_eq_recursive compare ["app"] Sample.tangled.successors
    (finitelyReachable_successors ["app"] Sample.tangled)
  rw [stopped] at same
  exact ⟨stopped, same⟩

end BuildGraph.DepthFirst
