import Mathlib.Logic.Relation
import BuildGraph.DepthFirst

/-! A depth-first search lists exactly what its roots lead to, each node behind all that it leads
to, unless some of these nodes lie on a loop. -/

namespace BuildGraph.DepthFirst

open Relation

universe u v

variable {α : Type u} {κ : Type v} {cmp : α → α → Ordering}

/-- A list in which all that a node leads to stands behind it. -/
def Settled (leads : κ → κ → Prop) : List κ → Prop
  -- The list is read from its latest node to its earliest.
  | [] => True
  | k :: rest => (∀ b, leads k b → b ∈ rest) ∧ Settled leads rest

namespace Settled

variable {leads : κ → κ → Prop} {nodes : List κ}

/-- Nothing leads out of a settled list. -/
theorem closed (settled : Settled leads nodes) {a b : κ} (member : a ∈ nodes)
    (path : ReflTransGen leads a b) : b ∈ nodes := by
  -- One edge leads behind its node, and a path is one edge after another.
  have edge : ∀ {nodes : List κ}, Settled leads nodes → ∀ {a b}, a ∈ nodes → leads a b →
      b ∈ nodes := by
    intro nodes settled a b member next
    induction nodes with
    | nil => cases member
    | cons first rest ih =>
      rcases List.mem_cons.mp member with rfl | later
      · exact .tail _ (settled.1 b next)
      · exact .tail _ (ih settled.2 later)
  induction path with
  | refl => exact member
  | tail _ next ih => exact edge settled ih next

/-- No node of a settled list leads back to itself. -/
theorem acyclic (settled : Settled leads nodes) {a : κ} (member : a ∈ nodes) :
    ¬ TransGen leads a a := by
  -- A loop through the first node would bring that node back among the nodes behind it.
  induction nodes with
  | nil => cases member
  | cons first rest ih =>
    by_cases later : a ∈ rest
    · exact ih settled.2 later
    · intro loop
      have same : a = first := (List.mem_cons.mp member).resolve_right later
      subst same
      obtain ⟨b, next, back⟩ := TransGen.head'_iff.mp loop
      exact later (settled.2.closed (settled.1 b next) back)

end Settled

/-- Frames, innermost first, whose nodes lead to what is pending and to the node searched from
there, and otherwise only to what is listed. -/
def Stacked (key : α → κ) (leads : κ → κ → Prop) (listed : List κ) :
    Option κ → List (Frame α) → Prop
  | _, [] => True
  | inner, f :: outer =>
    -- All that a node leads to is accounted for, and nothing else waits at its frame.
    (∀ k, leads (key f.node) k → k ∈ f.pending.map key ∨ k ∈ listed ∨ inner = some k) ∧
      (∀ k, k ∈ f.pending.map key ∨ inner = some k → leads (key f.node) k) ∧
        Stacked key leads listed (some (key f.node)) outer

namespace Stacked

variable {key : α → κ} {leads : κ → κ → Prop} {listed : List κ}

/-- Listing one more node takes nothing from the frames. -/
theorem cons (k : κ) {inner : Option κ} {frames : List (Frame α)}
    (stacked : Stacked key leads listed inner frames) :
    Stacked key leads (k :: listed) inner frames := by
  -- What each frame leads to stays pending, listed or searched.
  induction frames generalizing inner with
  | nil => trivial
  | cons f outer ih =>
    obtain ⟨covered, sound, rest⟩ := stacked
    refine ⟨fun b next => ?_, sound, ih rest⟩
    rcases covered b next with pending | done | here
    · exact .inl pending
    · exact .inr (.inl (.tail _ done))
    · exact .inr (.inr here)

/-- Once the node searched from the innermost frame is listed, that frame waits for the rest. -/
theorem leave {k : κ} {frames : List (Frame α)}
    (stacked : Stacked key leads listed (some k) frames) :
    Stacked key leads (k :: listed) none frames := by
  -- Only the innermost frame leads to the node that was searched.
  cases frames with
  | nil => trivial
  | cons f outer =>
    obtain ⟨covered, sound, rest⟩ := stacked
    refine ⟨fun b next => ?_, fun b pending => sound b (.inl ?_), rest.cons k⟩
    · rcases covered b next with pending | done | here
      · exact .inl pending
      · exact .inr (.inl (.tail _ done))
      · cases here
        exact .inr (.inl (.head _))
    · exact pending.resolve_right (by simp)

/-- Every frame leads to the node that is searched from the innermost one. -/
theorem leads_to_inner {k : κ} {frames : List (Frame α)}
    (stacked : Stacked key leads listed (some k) frames) {f : Frame α} (member : f ∈ frames) :
    TransGen leads (key f.node) k := by
  -- Each frame leads to the next one inside it, and the innermost one to the node.
  induction frames generalizing k with
  | nil => cases member
  | cons first outer ih =>
    obtain ⟨_, sound, rest⟩ := stacked
    have here : leads (key first.node) k := sound k (.inr rfl)
    rcases List.mem_cons.mp member with rfl | later
    · exact .single here
    · exact (ih rest later).tail here

end Stacked

namespace Sorter

/-- The keys of the nodes being visited, innermost first. -/
def entered (key : α → κ) (s : Sorter α cmp) : List κ :=
  -- The keys identify spellings, so that duplicates can be spoken of.
  s.frames.map fun f => key f.node

/-- The keys of the nodes already listed, latest first. -/
def listed (key : α → κ) (s : Sorter α cmp) : List κ :=
  -- The order is that of the search and not yet turned around.
  s.order.map key

/-- Marks say where a node is, under every spelling of it, and no node is in two places. -/
structure Marked (key : α → κ) (s : Sorter α cmp) : Prop where
  -- The first two fields tie the marks to the lists; the third keeps the lists apart.
  visited : ∀ a, s.marks[a]? = some .visited ↔ key a ∈ s.listed key
  visiting : ∀ a, s.marks[a]? = some .visiting ↔ key a ∈ s.entered key
  distinct : (s.entered key ++ s.listed key).Nodup

namespace Marked

variable {key : α → κ} {successors : α → List α} {s t : Sorter α cmp}

/-- A search begins with no marks. -/
theorem initial [Std.TransCmp cmp] (roots : List α) :
    Marked key ({ roots } : Sorter α cmp) := by
  -- Nothing has been entered or listed yet.
  constructor <;> simp [entered, listed]

/-- Whether a node has been met shows in its mark. -/
theorem met_iff (marked : s.Marked key) (a : α) :
    key a ∈ s.entered key ++ s.listed key ↔ s.marks[a]? ≠ none := by
  -- A mark is one of two, and each of them tells of one of the places.
  rw [List.mem_append, ← marked.visiting, ← marked.visited]
  cases s.marks[a]? with
  | none => simp
  | some mark => cases mark <;> simp

/-- Marks stay right while roots and pending nodes are passed over. -/
theorem passed {roots roots' : List α} {frames frames' : List (Frame α)}
    {marks : Std.TreeMap α Mark cmp} {order : List α}
    (marked : Marked key (⟨roots, frames, marks, order⟩ : Sorter α cmp))
    (same : frames'.map Frame.node = frames.map Frame.node) :
    Marked key (⟨roots', frames', marks, order⟩ : Sorter α cmp) := by
  -- What is entered shows in the nodes of the frames only.
  have entered : (⟨roots', frames', marks, order⟩ : Sorter α cmp).entered key =
      (⟨roots, frames, marks, order⟩ : Sorter α cmp).entered key := by
    simpa [Sorter.entered, Function.comp_def] using congrArg (List.map key) same
  exact ⟨marked.visited, entered ▸ marked.visiting, entered ▸ marked.distinct⟩

variable [Std.TransCmp cmp] (faithful : ∀ a b, cmp a b = .eq ↔ key a = key b)

include faithful

/-- A mark is seen under every spelling of its node. -/
theorem getElem?_mark (marks : Std.TreeMap α Mark cmp) (a b : α) (m : Mark)
    [Decidable (key a = key b)] :
    (marks.insert a m)[b]? = if key a = key b then some m else marks[b]? := by
  -- Nodes compare equal just if they have the same key.
  rw [Std.TreeMap.getElem?_insert]
  simp only [faithful]

/-- A node that is entered is marked so. -/
theorem enter {a : α} (marked : s.Marked key) (fresh : s.marks[a]? = none) :
    (s.enter successors a).Marked key := by
  -- The node has been in no place before.
  classical
  have unmet : key a ∉ s.entered key ++ s.listed key := fun met => (marked.met_iff a).mp met fresh
  have unlisted : key a ∉ s.listed key := fun done => unmet (List.mem_append_right _ done)
  constructor
  · -- No node is visited by the new mark, since its own was not listed.
    intro b
    change (s.marks.insert a .visiting)[b]? = some .visited ↔ key b ∈ s.listed key
    rw [getElem?_mark faithful, ← marked.visited]
    split
    · rename_i same
      rw [marked.visited, ← same]
      simpa using unlisted
    · rfl
  · -- The node joins those that are being visited.
    intro b
    change (s.marks.insert a .visiting)[b]? = some .visiting ↔ key b ∈ key a :: s.entered key
    rw [getElem?_mark faithful, List.mem_cons, ← marked.visiting]
    split
    · rename_i same
      simp [same]
    · rename_i other
      simp [Ne.symm other]
  · exact List.nodup_cons.mpr ⟨unmet, marked.distinct⟩

/-- A node that is listed is marked so. -/
theorem leave {node : α} {outer : List (Frame α)}
    (marked : Marked key { s with frames := ⟨node, []⟩ :: outer }) :
    Marked key { s with
      frames := outer, marks := s.marks.insert node .visited, order := node :: s.order } := by
  -- The node moves from the frames to the list, and no other has its key.
  classical
  have moved : (key node :: (outer.map fun f => key f.node) ++ s.order.map key).Nodup :=
    marked.distinct
  have unmet := (List.nodup_cons.mp moved).1
  constructor
  · -- The node joins those that are listed.
    intro b
    change (s.marks.insert node .visited)[b]? = some .visited ↔ key b ∈ key node :: s.order.map key
    have before : s.marks[b]? = some .visited ↔ key b ∈ s.order.map key := marked.visited b
    rw [getElem?_mark faithful, List.mem_cons, ← before]
    split
    · rename_i here
      simp [here]
    · rename_i other
      simp [Ne.symm other]
  · -- It is no longer being visited, and no frame that is left has its key.
    intro b
    change (s.marks.insert node .visited)[b]? = some .visiting ↔
      key b ∈ outer.map fun f => key f.node
    rw [getElem?_mark faithful]
    have before : s.marks[b]? = some .visiting ↔
        key b ∈ key node :: outer.map fun f => key f.node := marked.visiting b
    split
    · rename_i here
      rw [← here]
      simpa using fun f member same =>
        unmet (List.mem_append_left _ (List.mem_map.mpr ⟨f, member, same⟩))
    · rename_i other
      rw [before, List.mem_cons]
      exact ⟨fun member => member.resolve_left (Ne.symm other), .inr⟩
  · exact (List.perm_middle.nodup_iff).mpr moved

/-- Every turn of a search keeps the marks right. -/
theorem step (marked : s.Marked key) (stepped : s.step successors = .next t) :
    t.Marked key := by
  -- One case for each kind of turn; two of them enter a node, and one lists it.
  cases turn stepped with
  | passRoot met => exact marked.passed rfl
  | enterRoot fresh => exact (marked.passed rfl).enter faithful fresh
  | leave => exact marked.leave (s := ⟨_, [], _, _⟩) faithful
  | pass visited => exact marked.passed rfl
  | @enter node a roots pending outer marks order fresh =>
    have turned : Marked key (⟨roots, ⟨node, pending⟩ :: outer, marks, order⟩ : Sorter α cmp) :=
      marked.passed rfl
    exact turned.enter faithful fresh

end Marked

/-- What holds of a search from `given` roots, also while it is on its way to the node `inner`. -/
structure Invariant (key : α → κ) (leads : κ → κ → Prop) (given : List α) (inner : Option κ)
    (s : Sorter α cmp) : Prop extends Marked key s where
  -- What is listed is closed, and what is entered is on its way to be.
  settled : Settled leads (s.listed key)
  stacked : Stacked key leads (s.listed key) inner s.frames
  -- Nothing is met but what the roots lead to, and no root is lost.
  reached : ∀ k ∈ s.entered key ++ s.listed key, ∃ a ∈ given, ReflTransGen leads (key a) k
  begun : ∀ a ∈ given, a ∈ s.roots ∨ key a ∈ s.entered key ++ s.listed key ∨ inner = some (key a)
  waiting : ∀ a ∈ s.roots, a ∈ given

/-- The search from a state ends with a result. -/
inductive Yields (successors : α → List α) :
    Sorter α cmp → Except (List α) (List α) → Prop where
  -- It is a relation, so it can be asked for where no end is known to be near.
  | finished {s : Sorter α cmp} {order : List α} (stepped : s.step successors = .finished order) :
    Yields successors s (.ok order)
  | loop {s : Sorter α cmp} {nodes : List α} (stepped : s.step successors = .loop nodes) :
    Yields successors s (.error nodes)
  | next {s t : Sorter α cmp} {result : Except (List α) (List α)}
    (stepped : s.step successors = .next t) (rest : Yields successors t result) :
    Yields successors s result

/-- A run ends with its result, step by step. -/
theorem yields_run [Std.TransCmp cmp] {roots : List α} {successors : α → List α}
    (finite : FinitelyReachable roots successors) (s : Sorter α cmp)
    (within : s.Within roots successors) : Yields successors s (run finite s within) := by
  -- The induction follows the recursion of the run.
  fun_induction run finite s within with
  | case1 s within order stepped => exact .finished stepped
  | case2 s within nodes stepped => exact .loop stepped
  | case3 s within t stepped ih => exact .next stepped ih

/-- A search has one result. -/
theorem Yields.unique {successors : α → List α} {s : Sorter α cmp}
    {first second : Except (List α) (List α)} (one : Yields successors s first)
    (other : Yields successors s second) : first = second := by
  -- The search takes the same steps on both sides.
  induction one with
  | finished stepped =>
    cases other <;> simp_all
  | loop stepped =>
    cases other <;> simp_all
  | next stepped _ ih =>
    cases other with
    | finished also => simp_all
    | loop also => simp_all
    | next also rest =>
      rw [stepped] at also
      cases also
      exact ih rest

/-- The last turn of a search begins where all that every turn keeps still holds. -/
theorem Yields.last {successors : α → List α} (holds : Sorter α cmp → Prop)
    (keeps : ∀ s t, holds s → s.step successors = .next t → holds t) {s : Sorter α cmp}
    {result : Except (List α) (List α)} (search : Yields successors s result) (start : holds s) :
    ∃ t, holds t ∧ (∀ order, result = .ok order → t.step successors = .finished order) ∧
      ∀ nodes, result = .error nodes → t.step successors = .loop nodes := by
  -- By induction on the turns.
  induction search with
  | @finished s order stepped =>
    refine ⟨s, start, fun _ same => ?_, by simp⟩
    cases same
    exact stepped
  | @loop s nodes stepped =>
    refine ⟨s, start, by simp, fun _ same => ?_⟩
    cases same
    exact stepped
  | next stepped _ ih => exact ih (keeps _ _ start stepped)

namespace Invariant

variable {key : α → κ} {leads : κ → κ → Prop} {given : List α} {successors : α → List α}

/-- A search begins with nothing entered and nothing listed. -/
theorem initial [Std.TransCmp cmp] :
    Invariant key leads given none ({ roots := given } : Sorter α cmp) := by
  -- No root is lost, since all of them are still to come.
  refine ⟨.initial given, trivial, trivial, ?_, fun _ there => .inl there, fun _ there => there⟩
  simp [entered, listed]

/-- The search turns to the first of its roots. -/
theorem take_root {root : α} {roots : List α} {s : Sorter α cmp}
    (inv : Invariant key leads given none { s with roots := root :: roots, frames := [] }) :
    Invariant key leads given (some (key root)) { s with roots, frames := [] } := by
  -- Only the roots change: the first of them is now the node searched for.
  refine { inv with stacked := trivial, begun := fun a start => ?_, waiting := fun a rest => ?_ }
  · rcases inv.begun a start with rest | met | none
    · rcases List.mem_cons.mp rest with rfl | later
      · exact .inr (.inr rfl)
      · exact .inl later
    · exact .inr (.inl met)
    · cases none
  · exact inv.waiting a (.tail _ rest)

/-- The search turns from a frame to the first of its pending nodes. -/
theorem take {node a : α} {pending : List α} {outer : List (Frame α)} {s : Sorter α cmp}
    (inv : Invariant key leads given none { s with frames := ⟨node, a :: pending⟩ :: outer }) :
    Invariant key leads given (some (key a)) { s with frames := ⟨node, pending⟩ :: outer } := by
  -- The node that waited first is now the one that is searched.
  obtain ⟨covered, sound, rest⟩ := inv.stacked
  refine { inv with
    stacked := ⟨fun k next => ?_, fun k next => sound k (.inl ?_), rest⟩
    begun := fun b there => (inv.begun b there).imp_right (·.imp_right (by simp)) }
  · rcases covered k next with waiting | done | none
    · rcases List.mem_cons.mp waiting with rfl | later
      · exact .inr (.inr rfl)
      · exact .inl later
    · exact .inr (.inl done)
    · cases none
  · rcases next with later | here
    · exact .tail _ later
    · cases here
      exact .head _

/-- A node that is listed already need not be searched again. -/
theorem dismiss {k : κ} {s : Sorter α cmp} (inv : Invariant key leads given (some k) s)
    (done : k ∈ s.listed key) : Invariant key leads given none s := by
  -- What led to the node searched for now leads to something listed.
  refine { inv with stacked := ?_, begun := fun a there => ?_ }
  · have stacked := inv.stacked
    revert stacked
    cases s.frames with
    | nil => exact id
    | cons f outer =>
      rintro ⟨covered, sound, rest⟩
      refine ⟨fun b next => ?_, fun b waiting => sound b (.inl ?_), rest⟩
      · rcases covered b next with waiting | listed | here
        · exact .inl waiting
        · exact .inr (.inl listed)
        · cases here
          exact .inr (.inl done)
      · exact waiting.resolve_right (by simp)
  · rcases inv.begun a there with waiting | met | here
    · exact .inl waiting
    · exact .inr (.inl met)
    · cases here
      exact .inr (.inl (List.mem_append_right _ done))

variable [Std.TransCmp cmp]

/-- A search that finishes has listed all that its roots lead to. -/
theorem finished {s : Sorter α cmp} {order : List α} (inv : Invariant key leads given none s)
    (stepped : s.step successors = .finished order) :
    (order.map key).Nodup ∧ Settled leads (order.map key).reverse ∧
      ∀ k, k ∈ order.map key ↔ ∃ a ∈ given, ReflTransGen leads (key a) k := by
  -- Nothing is entered at the end, so that every root is listed, and nothing leads out of the list.
  cases turn stepped with
  | @finish marks listed =>
    have members : ∀ k, k ∈ listed.reverse.map key ↔ k ∈ listed.map key := by simp
    -- The result is the list turned round.
    refine ⟨?_, ?_, fun k => ⟨fun member => ?_, ?_⟩⟩
    · rw [List.map_reverse]
      exact (List.reverse_perm _).nodup_iff.mpr inv.distinct
    · rw [List.map_reverse, List.reverse_reverse]
      exact inv.settled
    · exact inv.reached k ((members k).mp member)
    · rintro ⟨a, there, path⟩
      have begun : key a ∈ listed.map key := by
        simpa [entered, Sorter.listed] using inv.begun a there
      exact (members k).mpr (inv.settled.closed begun path)

/-- A search that stops at a loop has met a node that leads back to itself. -/
theorem looped {s : Sorter α cmp} {nodes : List α} (inv : Invariant key leads given none s)
    (stepped : s.step successors = .loop nodes) :
    ∃ a ∈ given, ∃ k, ReflTransGen leads (key a) k ∧ TransGen leads k k := by
  cases turn stepped with
  | @loop node a roots pending outer marks order visiting =>
    -- The innermost frame leads to a node whose frame leads to the innermost one.
    have member := (inv.visiting a).mp visiting
    obtain ⟨r, there, path⟩ := inv.reached (key a) (List.mem_append_left _ member)
    have next : leads (key node) (key a) := inv.stacked.2.1 (key a) (.inl (.head _))
    refine ⟨r, there, key a, path, ?_⟩
    rcases List.mem_cons.mp member with here | outside
    · change key a = key node at here
      rw [here] at next ⊢
      exact .single next
    · obtain ⟨f, stacked, same⟩ := List.mem_map.mp outside
      rw [← same] at next ⊢
      exact (inv.stacked.2.2.leads_to_inner stacked).tail next

variable (faithful : ∀ a b, cmp a b = .eq ↔ key a = key b)
  (edges : ∀ a k, leads (key a) k ↔ k ∈ (successors a).map key)

include faithful edges in
/-- The search enters a node that it has not met. -/
theorem enter {a : α} {s : Sorter α cmp} (inv : Invariant key leads given (some (key a)) s)
    (fresh : s.marks[a]? = none) (start : ∃ r ∈ given, ReflTransGen leads (key r) (key a)) :
    Invariant key leads given none (s.enter successors a) := by
  -- The node moves onto the frames, with all that it leads to pending there.
  refine ⟨inv.toMarked.enter faithful fresh, inv.settled, ?_, ?_, ?_, inv.waiting⟩
  · refine ⟨fun k next => .inl ((edges a k).mp next), fun k waiting => ?_, inv.stacked⟩
    exact (edges a k).mpr (waiting.resolve_right (by simp))
  · intro k member
    rcases List.mem_cons.mp member with rfl | before
    · exact start
    · exact inv.reached k before
  · intro r there
    rcases inv.begun r there with waiting | met | here
    · exact .inl waiting
    · exact .inr (.inl (.tail _ met))
    · rw [← Option.some.inj here]
      exact .inr (.inl (.head _))

include faithful in
/-- The search lists a node once nothing is pending there. -/
theorem leave {node : α} {outer : List (Frame α)} {s : Sorter α cmp}
    (inv : Invariant key leads given none { s with frames := ⟨node, []⟩ :: outer }) :
    Invariant key leads given none { s with
      frames := outer, marks := s.marks.insert node .visited, order := node :: s.order } := by
  obtain ⟨covered, _, rest⟩ := inv.stacked
  -- The node moves from the frames to the list.
  have same : ∀ k, k ∈ (outer.map fun f => key f.node) ++ (key node :: s.order.map key) ↔
      k ∈ key node :: (outer.map fun f => key f.node) ++ s.order.map key :=
    fun k => List.perm_middle.mem_iff
  refine ⟨inv.toMarked.leave faithful, ⟨fun k next => ?_, inv.settled⟩, rest.leave, ?_, ?_,
    inv.waiting⟩
  · exact (covered k next).elim (by simp) (·.resolve_right (by simp))
  · exact fun k member => inv.reached k ((same k).mp member)
  · exact fun a there => (inv.begun a there).imp_right (·.imp_left (same (key a)).mpr)

include faithful edges in
/-- Every turn of a search keeps what holds of it. -/
theorem step {s t : Sorter α cmp} (inv : Invariant key leads given none s)
    (stepped : s.step successors = .next t) : Invariant key leads given none t := by
  cases turn stepped with
  | @passRoot root roots marks order met =>
    -- The root is listed, since nothing else is entered.
    have begin := inv.take_root (s := ⟨roots, [], marks, order⟩)
    exact begin.dismiss (by simpa [entered] using (begin.toMarked.met_iff root).mpr met)
  | @enterRoot root roots marks order fresh =>
    have begin := inv.take_root (s := ⟨roots, [], marks, order⟩)
    exact begin.enter faithful edges fresh ⟨root, inv.waiting root (.head _), .refl⟩
  | @leave node roots outer marks order =>
    exact inv.leave (s := ⟨roots, [], marks, order⟩) faithful
  | @pass node a roots pending outer marks order visited =>
    have turned := inv.take (s := ⟨roots, [], marks, order⟩)
    exact turned.dismiss ((inv.visited a).mp visited)
  | @enter node a roots pending outer marks order fresh =>
    -- The pending node is reached through the frame that it waits at.
    have turned := inv.take (s := ⟨roots, [], marks, order⟩)
    obtain ⟨r, there, path⟩ := inv.reached (key node) (.head _)
    have next : leads (key node) (key a) := inv.stacked.2.1 (key a) (.inl (.head _))
    exact turned.enter faithful edges fresh ⟨r, there, path.tail next⟩

end Invariant

end Sorter

section Sorted

variable [Std.TransCmp cmp] (key : α → κ) {leads : κ → κ → Prop} {roots : List α}
  {successors : α → List α} {finite : FinitelyReachable roots successors}
  (faithful : ∀ a b, cmp a b = .eq ↔ key a = key b)
  (edges : ∀ a k, leads (key a) k ↔ k ∈ (successors a).map key)

include faithful edges

/-- A sort that comes to an order lists once all that the roots lead to, each node behind all that
it leads to. -/
theorem sort_eq_ok {order : List α} (sorted : sort cmp roots successors finite = .ok order) :
    (order.map key).Nodup ∧ Settled leads (order.map key).reverse ∧
      ∀ k, k ∈ order.map key ↔ ∃ a ∈ roots, ReflTransGen leads (key a) k := by
  -- What holds at the beginning is kept by every turn, and the last turn returns the list.
  have search := Sorter.yields_run finite ({ roots } : Sorter α cmp) ⟨fun _ => .root, by simp⟩
  obtain ⟨t, inv, finished, _⟩ := search.last (Sorter.Invariant key leads roots none)
    (fun _ _ inv stepped => inv.step faithful edges stepped) .initial
  exact inv.finished (finished order sorted)

/-- A sort that comes to a loop has met a node that leads back to itself. -/
theorem sort_eq_error {loop : List α} (stopped : sort cmp roots successors finite = .error loop) :
    ∃ a ∈ roots, ∃ k, ReflTransGen leads (key a) k ∧ TransGen leads k k := by
  -- What holds at the beginning is kept by every turn, and the last turn finds the loop.
  have search := Sorter.yields_run finite ({ roots } : Sorter α cmp) ⟨fun _ => .root, by simp⟩
  obtain ⟨t, inv, _, looped⟩ := search.last (Sorter.Invariant key leads roots none)
    (fun _ _ inv stepped => inv.step faithful edges stepped) .initial
  exact inv.looped (looped loop stopped)

end Sorted

end BuildGraph.DepthFirst
