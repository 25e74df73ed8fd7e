import BuildGraph.Proofs.DepthFirst.Record
import BuildGraph.Proofs.DepthFirst.TopologicalOrder

/-! A depth-first search enters no node twice, asks once for the successors of each that it enters,
and takes each of them once at most. -/

namespace BuildGraph.DepthFirst

universe u

variable {α : Type u} {cmp : α → α → Ordering} {roots : List α} {successors : α → List α}

/-- What the acts of a search come to: no node is asked about twice, and what is taken from the
lists of a node is no more than the first part of the one list that was asked for. -/
structure Frugal (cmp : α → α → Ordering) (successors : α → List α) (acts : List (Act α)) :
    Prop where
  once : (asked acts).Pairwise fun a b => cmp a b ≠ .eq
  -- The node is looked for under all its spellings.
  front : ∀ node, taken cmp acts node = [] ∨
    ∃ a ∈ asked acts, cmp a node = .eq ∧ taken cmp acts node <+: successors a

/-- Where a search stands after some acts. -/
structure Orderly (successors : α → List α) (s : Sorter α cmp) (acts : List (Act α)) : Prop where
  visiting : ∀ a, s.marks[a]? = some .visiting ↔ ∃ f ∈ s.frames, cmp f.node a = .eq
  visited : ∀ a, s.marks[a]? = some .visited ↔ ∃ b ∈ s.order, cmp b a = .eq
  entered : ∀ a ∈ s.frames.map Frame.node ++ s.order,
    (entries acts).countP (fun b => cmp b a == .eq) = 1
  frugal : Frugal cmp successors acts
  -- What has been taken and what still waits make up the list that was asked for.
  stacked : ∀ f ∈ s.frames, taken cmp acts f.node ++ f.pending = successors f.node
  listed : ∀ a ∈ s.order, taken cmp acts a = successors a

namespace Sorter

/-- The nodes that have been entered: those that are being visited, and those that are listed. -/
def met (s : Sorter α cmp) : List α :=
  -- No node is in both parts at once.
  s.frames.map Frame.node ++ s.order

/-- The record of a search fits the place where it stands. -/
structure Kept [Std.TransCmp cmp] (successors : α → List α) (s : Sorter α cmp)
    (acts : List (Act α)) : Prop where
  marked : s.Marked (spelled cmp)
  asked : asked acts = entries acts
  entered : (entries acts).Perm s.met
  owned : ∀ node a, Act.take node a ∈ acts → node ∈ s.met
  -- What was taken from a list and what still waits there make up the list.
  stacked : ∀ f ∈ s.frames, taken cmp acts f.node ++ f.pending = successors f.node
  listed : ∀ a ∈ s.order, taken cmp acts a = successors a

section Marks

variable [Std.TransCmp cmp] {s : Sorter α cmp}

/-- The classes of the nodes that have been entered. -/
theorem map_spelled_met (s : Sorter α cmp) :
    s.met.map (spelled cmp) = s.entered (spelled cmp) ++ s.listed (spelled cmp) := by
  -- What has been met is visiting or listed, in this order.
  simp [met, Sorter.entered, Sorter.listed, Function.comp_def]

/-- A node has a mark where some spelling of it has been entered. -/
theorem Marked.ne_none_iff (marked : s.Marked (spelled cmp)) (a : α) :
    s.marks[a]? ≠ none ↔ ∃ b ∈ s.met, cmp b a = .eq := by
  -- Marks tell of classes, and a class has been met where one of its nodes has.
  rw [← marked.met_iff, ← map_spelled_met, List.mem_map]
  simp only [compare_eq_iff_spelled]

/-- No node has been entered twice. -/
theorem Marked.met_distinct (marked : s.Marked (spelled cmp)) :
    s.met.Pairwise fun a b => cmp a b ≠ .eq := by
  -- The marks keep the classes apart, and so the nodes of them.
  have distinct := marked.distinct
  rw [← map_spelled_met] at distinct
  exact (List.pairwise_map.mp distinct).imp fun other same =>
    other ((compare_eq_iff_spelled _ _).mp same)

end Marks

namespace Kept

variable [Std.TransCmp cmp] {s t : Sorter α cmp} {acts : List (Act α)}

/-- A search begins with an empty record. -/
theorem initial (roots : List α) (successors : α → List α) :
    Kept successors ({ roots } : Sorter α cmp) [] where
  -- There is nothing yet that could have been recorded.
  marked := .initial roots
  asked := rfl
  entered := .nil
  owned := by simp
  stacked := by simp
  listed := by simp

/-- Nothing has been taken from the list of a node that has no mark. -/
theorem taken_eq_nil (kept : Kept successors s acts) {a : α} (fresh : s.marks[a]? = none) :
    taken cmp acts a = [] := by
  refine List.filterMap_eq_nil_iff.mpr fun act member => ?_
  cases act with
  | take node b =>
    -- The list would be that of a node which has been entered.
    refine if_neg fun same => ?_
    exact (kept.marked.ne_none_iff a).mpr ⟨node, kept.owned node b member, same⟩ fresh
  | _ => rfl

/-- The record stays right while a root is passed over that has been met. -/
theorem passRoot {root : α} {todo : List α} {marks : Std.TreeMap α Mark cmp} {order : List α}
    (kept : Kept successors ⟨root :: todo, [], marks, order⟩ acts) :
    Kept successors ⟨todo, [], marks, order⟩ acts :=
  -- Nothing is done that would be recorded.
  ⟨kept.marked.passed rfl, kept.asked, kept.entered, kept.owned, kept.stacked, kept.listed⟩

/-- A successor that is taken moves from what waits at its frame to what was taken there. -/
theorem take {node a : α} {todo pending : List α} {outer : List (Frame α)}
    {marks : Std.TreeMap α Mark cmp} {order : List α}
    (kept : Kept successors ⟨todo, ⟨node, a :: pending⟩ :: outer, marks, order⟩ acts) :
    Kept successors ⟨todo, ⟨node, pending⟩ :: outer, marks, order⟩ (acts ++ [.take node a]) := by
  -- The other nodes that have been entered are not spellings of this one.
  have others : ∀ b ∈ outer.map Frame.node ++ order, cmp node b ≠ .eq :=
    (List.pairwise_cons.mp kept.marked.met_distinct).1
  have same : ∀ b ∈ outer.map Frame.node ++ order,
      taken cmp (acts ++ [.take node a]) b = taken cmp acts b := by
    intro b member
    rw [taken_take, if_neg (others b member), List.append_nil]
  constructor
  · exact kept.marked.passed rfl
  · rw [asked_take, entries_take, kept.asked]
  · rw [entries_take]
    exact kept.entered
  · intro owner b member
    rcases List.mem_append.mp member with before | here
    · exact kept.owned owner b before
    · obtain ⟨rfl, rfl⟩ : owner = node ∧ b = a := by simpa using here
      exact .head _
  · -- At its own frame, the successor is now behind what was taken before it.
    intro f member
    rcases List.mem_cons.mp member with rfl | outside
    · have whole := kept.stacked _ (.head _)
      rw [taken_take, if_pos Std.ReflCmp.compare_self, List.append_assoc]
      exact whole
    · rw [same _ (List.mem_append_left _ (List.mem_map_of_mem outside))]
      exact kept.stacked f (.tail _ outside)
  · intro b member
    rw [same b (List.mem_append_right _ member)]
    exact kept.listed b member

/-- A node that has no mark is entered with all its successors waiting. -/
theorem enter {a : α} (kept : Kept successors s acts) (fresh : s.marks[a]? = none) :
    Kept successors (s.enter successors a) (acts ++ [.enter a, .ask a]) := by
  constructor
  · exact kept.marked.enter compare_eq_iff_spelled fresh
  · rw [asked_enter, entries_enter, kept.asked]
  · rw [entries_enter]
    exact (List.perm_append_singleton a _).trans (kept.entered.cons a)
  · intro node b member
    have before : Act.take node b ∈ acts := by simpa using member
    exact .tail _ (kept.owned node b before)
  · intro f member
    rw [taken_enter]
    rcases List.mem_cons.mp member with rfl | outside
    · -- All that its node leads to is waiting at the new frame.
      rw [kept.taken_eq_nil fresh]
      rfl
    · exact kept.stacked f outside
  · intro b member
    rw [taken_enter]
    exact kept.listed b member

/-- A node is listed once all its successors have been taken. -/
theorem leave {node : α} {todo : List α} {outer : List (Frame α)}
    {marks : Std.TreeMap α Mark cmp} {order : List α}
    (kept : Kept successors ⟨todo, ⟨node, []⟩ :: outer, marks, order⟩ acts) :
    Kept successors ⟨todo, outer, marks.insert node .visited, node :: order⟩ acts := by
  -- The node moves from the frames to the list.
  have moved : (outer.map Frame.node ++ node :: order).Perm
      (node :: outer.map Frame.node ++ order) := List.perm_middle
  constructor
  · exact kept.marked.leave (s := ⟨todo, [], marks, order⟩) compare_eq_iff_spelled
  · exact kept.asked
  · exact kept.entered.trans moved.symm
  · exact fun owner b member => moved.mem_iff.mpr (kept.owned owner b member)
  · exact fun f outside => kept.stacked f (.tail _ outside)
  · -- Nothing waits at the frame any more.
    intro b member
    rcases List.mem_cons.mp member with rfl | before
    · have whole := kept.stacked _ (.head _)
      rwa [List.append_nil] at whole
    · exact kept.listed b before

/-- Every step keeps the record right. -/
theorem step (kept : Kept successors s acts) (stepped : s.step successors = .next t) :
    Kept successors t (acts ++ s.acts) := by
  -- Whether a root or a successor is entered shows in its mark, on both sides.
  cases turn stepped with
  | @passRoot root todo marks order met =>
    have known : marks[root]?.isSome = true := Option.isSome_iff_ne_none.mpr met
    simpa [Sorter.acts, Std.TreeMap.contains_eq_isSome_getElem?, known] using kept.passRoot
  | @enterRoot root todo marks order fresh =>
    simpa [Sorter.acts, Std.TreeMap.contains_eq_isSome_getElem?, fresh] using
      kept.passRoot.enter fresh
  | @leave node todo outer marks order => simpa [Sorter.acts] using kept.leave
  | @pass node a todo pending outer marks order visited =>
    simpa [Sorter.acts, visited] using kept.take
  | @enter node a todo pending outer marks order fresh =>
    simpa [Sorter.acts, fresh] using kept.take.enter fresh

end Kept

variable [Std.TransCmp cmp] {s t : Sorter α cmp} {acts before : List (Act α)}

/-- The record stays right along a search. -/
theorem Kept.passes (kept : Kept successors s before) (search : Passes successors s acts t) :
    Kept successors t (before ++ acts) := by
  -- By induction on the steps, each of which adds to the record.
  induction search generalizing before with
  | here => simpa using kept
  | step stepped _ ih =>
    obtain ⟨taken, rfl⟩ := stepRecorded_eq_iff.mp stepped
    rw [← List.append_assoc]
    exact ih (kept.step taken)

/-- Nodes that have been entered have been entered once. -/
theorem Kept.entered_once (kept : Kept successors s acts) {a : α} (member : a ∈ s.met) :
    (entries acts).countP (fun b => cmp b a == .eq) = 1 := by
  classical
  -- Up to spelling, no node is entered twice.
  have distinct : (s.met.map (spelled cmp)).Nodup := by
    rw [map_spelled_met]
    exact kept.marked.distinct
  have counted := List.count_eq_one_of_mem distinct (List.mem_map_of_mem (f := spelled cmp) member)
  rw [List.count, List.countP_map] at counted
  rw [kept.entered.countP_eq, ← counted]
  refine List.countP_congr fun b _ => ?_
  simp [compare_eq_iff_spelled]

/-- By a record that is right, no search does anything twice. -/
theorem Kept.frugal (kept : Kept successors s acts) : Frugal cmp successors acts := by
  constructor
  · rw [kept.asked]
    exact kept.entered.symm.pairwise kept.marked.met_distinct fun other same =>
      other (Std.OrientedCmp.eq_symm same)
  · intro node
    by_cases fresh : s.marks[node]? = none
    · exact .inl (kept.taken_eq_nil fresh)
    · -- A node that has a mark has been entered in some spelling, and its list is that one's.
      obtain ⟨a, member, same⟩ := (kept.marked.ne_none_iff node).mp fresh
      have same_list : taken cmp acts node = taken cmp acts a := by
        refine List.filterMap_congr fun act _ => ?_
        cases act <;> simp only [Act.taken?, Std.TransCmp.congr_right same]
      refine .inr ⟨a, ?_, same, ?_⟩
      · rw [kept.asked]
        exact kept.entered.mem_iff.mpr member
      · rw [same_list]
        rcases List.mem_append.mp member with visiting | done
        · obtain ⟨f, there, rfl⟩ := List.mem_map.mp visiting
          exact ⟨f.pending, kept.stacked f there⟩
        · exact ⟨[], by rw [List.append_nil, kept.listed a done]⟩

/-- A search stands in order where its record is right. -/
theorem Kept.orderly (kept : Kept successors s acts) : Orderly successors s acts where
  -- Marks are read up to spelling, and the other fields are what is recorded.
  visiting a := by
    rw [kept.marked.visiting, Sorter.entered, List.mem_map]
    simp only [compare_eq_iff_spelled]
  visited a := by
    rw [kept.marked.visited, Sorter.listed, List.mem_map]
    simp only [compare_eq_iff_spelled]
  entered _ member := kept.entered_once member
  frugal := kept.frugal
  stacked := kept.stacked
  listed := kept.listed

/-- A search that ends has done nothing twice, and where it comes to an order, it has entered what
it lists and has taken all successors of that. -/
theorem Kept.ends {result : Except (List α) (List α)} (kept : Kept successors s before)
    (search : Ends successors s acts result) : Frugal cmp successors (before ++ acts) ∧
      ∀ order, result = .ok order → (entries (before ++ acts)).Perm order ∧
        ∀ a ∈ order, taken cmp (before ++ acts) a = successors a := by
  -- By induction on the steps; the last of them takes one more successor at most.
  induction search generalizing before with
  | finished stepped =>
    obtain ⟨taken, rfl⟩ := stepRecorded_eq_iff.mp stepped
    cases turn taken with
    | @finish marks order =>
      have same : before ++ (⟨[], [], marks, order⟩ : Sorter α cmp).acts = before :=
        List.append_nil before
      rw [same]
      refine ⟨kept.frugal, ?_⟩
      rintro _ ⟨⟩
      exact ⟨kept.entered.trans (List.reverse_perm order).symm,
        fun a member => kept.listed a (List.mem_reverse.mp member)⟩
  | loop stepped =>
    obtain ⟨taken, rfl⟩ := stepRecorded_eq_iff.mp stepped
    cases turn taken with
    | @loop node a todo pending outer marks order visiting =>
      have last : (⟨todo, ⟨node, a :: pending⟩ :: outer, marks, order⟩ : Sorter α cmp).acts =
          [.take node a] := by
        simp [Sorter.acts, visiting]
      rw [last]
      exact ⟨kept.take.frugal, by simp⟩
  | next stepped _ ih =>
    obtain ⟨taken, rfl⟩ := stepRecorded_eq_iff.mp stepped
    rw [← List.append_assoc]
    exact ih (kept.step taken)

end Sorter

/-- Whatever the roots, and whatever they lead to in finitely many nodes: wherever a search comes
by, the marks say which nodes are being visited and which are listed, each of these has been entered
once, what was taken from its list and what still waits make up the list, and the search for the
next root returns. And the search ends, with the result of the sort; it has then asked for the
successors of no node twice and has taken none of them twice, and where it comes to an order, it has
entered the nodes of that order and has taken all their successors. -/
theorem enters_once (cmp : α → α → Ordering) [Std.TransCmp cmp] (roots : List α)
    (successors : α → List α) (finite : ReachesFinitely cmp roots successors) :
    (∀ acts s, Sorter.Passes successors ({ roots } : Sorter α cmp) acts s →
      Orderly successors s acts ∧ s.Returns successors) ∧
    (∃ acts result, Sorter.Ends successors ({ roots } : Sorter α cmp) acts result) ∧
    ∀ acts result, Sorter.Ends successors ({ roots } : Sorter α cmp) acts result →
      (∀ exact, sort cmp roots successors exact = result) ∧
      Frugal cmp successors acts ∧
      ∀ order, result = .ok order →
        (entries acts).Perm order ∧ ∀ a ∈ order, taken cmp acts a = successors a := by
  obtain ⟨nodes, bound⟩ := finite
  have within : ({ roots } : Sorter α cmp).Within roots successors := ⟨fun _ => .root, by simp⟩
  have kept : Sorter.Kept successors ({ roots } : Sorter α cmp) [] := .initial roots successors
  refine ⟨fun acts s search => ?_, Sorter.exists_ends (Sorter.turns_end bound _ within),
    fun acts result search => ⟨fun exact => ?_, kept.ends search⟩⟩
  · -- What is kept on the way holds there, and from there on the search ends as well.
    have ending := Sorter.turns_end bound s (search.within within)
    exact ⟨(kept.passes search).orderly, Sorter.returns ending⟩
  · exact (Sorter.yields_run exact ({ roots } : Sorter α cmp) within).unique search.yields

/-- The application is asked for twice, in two spellings, and so is the core that it needs; each is
entered once. -/
theorem enters_once_of_sample :
    ReachesFinitely compare Sample.wanted Sample.needs.successors ∧
    ∃ acts, Sorter.Ends Sample.needs.successors ({ roots := Sample.wanted } : Sorter Path compare)
        acts (.ok [⟨"//core/."⟩, ⟨"/net"⟩, ⟨"/app/"⟩]) ∧
      Frugal compare Sample.needs.successors acts ∧
      (entries acts).Perm [⟨"//core/."⟩, ⟨"/net"⟩, ⟨"/app/"⟩] ∧
      taken compare acts ⟨"/app/"⟩ = [⟨"/net"⟩, ⟨"/core"⟩] := by
  -- The general statement is asked of the search, whose order is followed by hand.
  have exact := finitelyReachable_successors Sample.wanted Sample.needs
  have ended : ({ roots := Sample.wanted } : Sorter Path compare).within
      Sample.needs.successors 20 = some (.ok [⟨"//core/."⟩, ⟨"/net"⟩, ⟨"/app/"⟩]) := rfl
  obtain ⟨_, ⟨acts, result, search⟩, ends⟩ :=
    enters_once compare Sample.wanted Sample.needs.successors (.of_exact exact)
  obtain ⟨same, frugal, listed⟩ := ends acts result search
  have sorted : .ok [⟨"//core/."⟩, ⟨"/net"⟩, ⟨"/app/"⟩] = result :=
    (sort_of_within ended).symm.trans (same exact)
  obtain ⟨once, all⟩ := listed _ sorted.symm
  exact ⟨.of_exact exact, acts, sorted ▸ search, frugal, once, all ⟨"/app/"⟩ (by simp)⟩

end BuildGraph.DepthFirst
