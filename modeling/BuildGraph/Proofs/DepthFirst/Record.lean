import Mathlib.Control.Monad.Writer
import BuildGraph.Proofs.DepthFirst

/-! A record of what a depth-first search does, step by step, and that a search comes to its end
wherever its roots lead to finitely many nodes. -/

namespace BuildGraph.DepthFirst

universe u

variable {α : Type u} {cmp : α → α → Ordering} {roots : List α} {successors : α → List α}

/-- What a search does with nodes and with the lists of their successors. -/
inductive Act (α : Type u) where
  -- Looking at a mark is no act, since it asks nothing of anyone.
  /-- A node is entered. -/
  | enter (a : α)
  /-- The successors of a node are asked for. -/
  | ask (a : α)
  /-- The next successor is taken from the list of a node. -/
  | take (node a : α)

namespace Act

/-- The node that is entered, if one is. -/
def entered? : Act α → Option α
  -- The other acts enter nothing.
  | enter a => some a
  | _ => none

/-- The node whose successors are asked for, if they are. -/
def asked? : Act α → Option α
  -- The other acts ask for nothing.
  | ask a => some a
  | _ => none

/-- The successor that is taken from the list of a node, in whatever spelling of that node. -/
def taken? (cmp : α → α → Ordering) (node : α) : Act α → Option α
  -- The owner of the list may be spelled in another way than it is asked for.
  | take owner a => if cmp owner node = .eq then some a else none
  | _ => none

end Act

/-- The nodes that are entered, one after another. -/
def entries (acts : List (Act α)) : List α :=
  -- The order is that in which they happen.
  acts.filterMap Act.entered?

/-- The nodes whose successors are asked for, one after another. -/
def asked (acts : List (Act α)) : List α :=
  -- The order is that in which they happen.
  acts.filterMap Act.asked?

/-- The successors that are taken from the lists of a node, one after another. -/
def taken (cmp : α → α → Ordering) (acts : List (Act α)) (node : α) : List α :=
  -- The order is that in which they happen.
  acts.filterMap (Act.taken? cmp node)

section Acts

variable (acts : List (Act α)) (node a b : α)

/-- Entering a node adds it to the nodes that are entered. -/
@[simp] theorem entries_enter : entries (acts ++ [.enter a, .ask a]) = entries acts ++ [a] := by
  -- Of the two acts, only the first enters a node.
  simp [entries, Act.entered?]

/-- Entering a node adds it to the nodes whose successors are asked for. -/
@[simp] theorem asked_enter : asked (acts ++ [.enter a, .ask a]) = asked acts ++ [a] := by
  -- Of the two acts, only the second asks for successors.
  rw [asked, List.filterMap_append]
  rfl

/-- Entering a node takes nothing from any list. -/
@[simp] theorem taken_enter : taken cmp (acts ++ [.enter a, .ask a]) b = taken cmp acts b := by
  -- Neither of the acts takes a successor.
  simp [taken, Act.taken?]

/-- Taking a successor enters nothing. -/
@[simp] theorem entries_take : entries (acts ++ [.take node a]) = entries acts := by
  -- The act is of another kind.
  simp [entries, Act.entered?]

/-- Taking a successor asks for nothing. -/
@[simp] theorem asked_take : asked (acts ++ [.take node a]) = asked acts := by
  -- The act is of another kind.
  simp [asked, Act.asked?]

/-- A successor is taken from the list of its own node only, in whatever spelling of that node. -/
theorem taken_take : taken cmp (acts ++ [.take node a]) b =
    taken cmp acts b ++ if cmp node b = .eq then [a] else [] := by
  -- Whether the act counts is decided by comparing its node.
  rw [taken, List.filterMap_append, List.filterMap_cons]
  by_cases same : cmp node b = .eq <;> simp [Act.taken?, same, taken]

end Acts

/-- Values that come with a record of what was done for them. -/
abbrev Recorded (α : Type u) : Type u → Type u :=
  Writer (List (Act α))

/-- Asking for the successors of a node is recorded. -/
def askFor (successors : α → List α) (a : α) : Recorded α (List α) := do
  -- This is the only place where the successors are looked at, so no question goes unrecorded.
  tell [.ask a]
  return successors a

/-- Taking the node that waits first at a frame is recorded; the frame is left without it. -/
def Frame.takeNext (f : Frame α) : Recorded α (Option (α × Frame α)) :=
  -- This is the only place where something pending is looked at.
  match f.pending with
  | [] => return none
  | a :: pending => do
    tell [.take f.node a]
    return some (a, ⟨f.node, pending⟩)

namespace Sorter

/-- The search turns to a new node, with a record of that. -/
def enterRecorded (s : Sorter α cmp) (successors : α → List α) (a : α) :
    Recorded α (Sorter α cmp) := do
  -- The entry is recorded before the question that it leads to.
  tell [.enter a]
  let pending ← askFor successors a
  return { s with frames := ⟨a, pending⟩ :: s.frames, marks := s.marks.insert a .visiting }

/-- One step of the search, with a record of what it does. -/
def stepRecorded (s : Sorter α cmp) (successors : α → List α) : Recorded α (Step α cmp) :=
  -- Each branch does what the step without a record does.
  match s.frames with
  | [] =>
    match s.roots with
    | [] => return .finished s.order.reverse
    | root :: roots => do
      if s.marks.contains root then return .next { s with roots }
      else return .next (← enterRecorded { s with roots } successors root)
  | f :: frames => do
    match ← f.takeNext with
    | none =>
      return .next { s with
        frames, marks := s.marks.insert f.node .visited, order := f.node :: s.order }
    | some (a, f) =>
      let s := { s with frames := f :: frames }
      match (s.marks[a]? : Option Mark) with
      | some .visited => return .next s
      | some .visiting => return .loop (s.loopAt a)
      | none => return .next (← s.enterRecorded successors a)

/-- What a step does from where a search stands. -/
def acts (s : Sorter α cmp) : List (Act α) :=
  match s.frames with
  | [] =>
    match s.roots with
    | [] => []
    | root :: _ => if s.marks.contains root then [] else [.enter root, .ask root]
  | ⟨_, []⟩ :: _ => []
  -- A successor is taken off its list also where it is then passed over.
  | ⟨node, a :: _⟩ :: _ =>
    .take node a :: if s.marks[a]?.isSome then [] else [.enter a, .ask a]

/-- A recorded step is the step, with a record of what it does. -/
theorem run_stepRecorded (s : Sorter α cmp) (successors : α → List α) :
    (s.stepRecorded successors).run = (s.step successors, s.acts) := by
  -- The cases are those that the step tells apart.
  obtain ⟨todo, frames, marks, order⟩ := s
  cases frames with
  | nil =>
    cases todo with
    | nil => rfl
    | cons root todo =>
      simp only [stepRecorded, step, acts]
      split <;> rfl
  | cons f outer =>
    obtain ⟨node, pending⟩ := f
    cases pending with
    | nil => rfl
    | cons a pending =>
      -- Taking the successor leaves the marks alone, and its own mark tells what comes next.
      cases mark : marks[a]? with
      | none =>
        simp [stepRecorded, Frame.takeNext, enterRecorded, askFor, tell, step, enter, acts, mark]
        rfl
      | some m =>
        cases m <;> simp [stepRecorded, Frame.takeNext, tell, step, acts, mark] <;> rfl

/-- A search comes from one place to another, with a record of what it does on the way. -/
inductive Passes (successors : α → List α) :
    Sorter α cmp → List (Act α) → Sorter α cmp → Prop where
  -- The acts of all steps are put together in order.
  | here {s : Sorter α cmp} : Passes successors s [] s
  | step {s t u : Sorter α cmp} {acts more : List (Act α)}
    (stepped : (s.stepRecorded successors).run = (.next t, acts))
    (rest : Passes successors t more u) : Passes successors s (acts ++ more) u

/-- A search comes to its result, with a record of all that it does until then. -/
inductive Ends (successors : α → List α) :
    Sorter α cmp → List (Act α) → Except (List α) (List α) → Prop where
  -- The step that ends the search has acts of its own.
  | finished {s : Sorter α cmp} {acts : List (Act α)} {order : List α}
    (stepped : (s.stepRecorded successors).run = (.finished order, acts)) :
    Ends successors s acts (.ok order)
  | loop {s : Sorter α cmp} {acts : List (Act α)} {nodes : List α}
    (stepped : (s.stepRecorded successors).run = (.loop nodes, acts)) :
    Ends successors s acts (.error nodes)
  | next {s t : Sorter α cmp} {acts more : List (Act α)} {result : Except (List α) (List α)}
    (stepped : (s.stepRecorded successors).run = (.next t, acts))
    (rest : Ends successors t more result) : Ends successors s (acts ++ more) result

/-- The search for the root that comes next returns: it comes to the roots behind that one, with
nothing left to be visited, or it stops at a loop. -/
def Returns (successors : α → List α) (s : Sorter α cmp) : Prop :=
  -- Nothing is said where there are no roots left.
  ∀ root todo, s.frames = [] → s.roots = root :: todo →
    (∃ acts t, Passes successors s acts t ∧ t.frames = [] ∧ t.roots = todo) ∨
      ∃ acts nodes, Ends successors s acts (.error nodes)

/-- A recorded step is a step, and its record is what that step does. -/
theorem stepRecorded_eq_iff {s : Sorter α cmp} {result : Step α cmp} {acts : List (Act α)} :
    (s.stepRecorded successors).run = (result, acts) ↔
      s.step successors = result ∧ s.acts = acts := by
  -- The record runs beside the step and does not touch it.
  rw [run_stepRecorded, Prod.mk.injEq]

/-- A step can be recorded. -/
theorem recorded {s : Sorter α cmp} {result : Step α cmp} (stepped : s.step successors = result) :
    (s.stepRecorded successors).run = (result, s.acts) :=
  -- It is the case of the record that the step makes.
  stepRecorded_eq_iff.mpr ⟨stepped, rfl⟩

/-- What a recorded search comes to is what the search yields. -/
theorem Ends.yields {s : Sorter α cmp} {acts : List (Act α)} {result : Except (List α) (List α)}
    (search : Ends successors s acts result) : Yields successors s result := by
  -- The induction is on the search; what is recorded is forgotten turn by turn.
  induction search with
  | finished stepped => exact .finished (stepRecorded_eq_iff.mp stepped).1
  | loop stepped => exact .loop (stepRecorded_eq_iff.mp stepped).1
  | next stepped _ ih => exact .next (stepRecorded_eq_iff.mp stepped).1 ih

end Sorter

/-- Some list holds every node that the roots lead to, in one spelling or another. -/
def ReachesFinitely (cmp : α → α → Ordering) (roots : List α) (successors : α → List α) : Prop :=
  -- It is weaker than asking for every spelling, of which there may be infinitely many.
  ∃ nodes : List α, ∀ a, Reachable roots successors a → ∃ b ∈ nodes, cmp a b = .eq

/-- A list of all that is reachable holds each node in some spelling. -/
theorem ReachesFinitely.of_exact [Std.ReflCmp cmp] (finite : FinitelyReachable roots successors) :
    ReachesFinitely cmp roots successors := by
  -- A node is a spelling of itself.
  obtain ⟨nodes, bound⟩ := finite
  exact ⟨nodes, fun a reached => ⟨a, bound a reached, Std.ReflCmp.compare_self⟩⟩

namespace Sorter

variable {s t : Sorter α cmp}

/-- A search that does not go on for ever comes to its result. -/
theorem exists_ends (ending : Acc (fun t s => s.step successors = .next t) s) :
    ∃ acts result, Ends successors s acts result := by
  -- The induction is on what is still to come, and each step is recorded.
  induction ending with
  | intro s _ ih =>
    cases stepped : s.step successors with
    | finished order => exact ⟨_, _, .finished (recorded stepped)⟩
    | loop nodes => exact ⟨_, _, .loop (recorded stepped)⟩
    | next t =>
      obtain ⟨acts, result, rest⟩ := ih t stepped
      exact ⟨_, _, .next (recorded stepped) rest⟩

variable [Std.TransCmp cmp]

/-- No search goes on for ever among finitely many nodes. -/
theorem turns_end {nodes : List α}
    (bound : ∀ a, Reachable roots successors a → ∃ b ∈ nodes, cmp a b = .eq) (s : Sorter α cmp)
    (within : s.Within roots successors) : Acc (fun t s => s.step successors = .next t) s :=
  -- Each step enters a node, or leaves less to be looked at.
  .intro s fun t stepped => turns_end bound t (within_of_step within stepped)
termination_by (s.unmarked nodes, s.remaining)
decreasing_by exact lex_of_step within bound stepped

/-- The roots wait while anything is being visited. -/
theorem roots_of_step {f : Frame α} {outer : List (Frame α)} (busy : s.frames = f :: outer)
    (stepped : s.step successors = .next t) : t.roots = s.roots := by
  -- Only without frames does a turn look at the roots.
  cases turn stepped with
  | passRoot met => cases busy
  | enterRoot fresh => cases busy
  | leave => rfl
  | pass visited => rfl
  | enter fresh => rfl

/-- A search that does not go on for ever comes to where nothing is left to be visited, with the
same roots waiting, or stops at a loop. -/
theorem exists_emptied (ending : Acc (fun t s => s.step successors = .next t) s) :
    (∃ acts t, Passes successors s acts t ∧ t.frames = [] ∧ t.roots = s.roots) ∨
      ∃ acts nodes, Ends successors s acts (.error nodes) := by
  -- Only a search with nothing to be visited turns to its roots, so that none is lost on the way.
  induction ending with
  | intro s _ ih =>
    cases frames : s.frames with
    | nil => exact .inl ⟨[], s, .here, frames, rfl⟩
    | cons f outer =>
      cases stepped : s.step successors with
      | finished order => cases turn stepped with
        | finish => cases frames
      | loop nodes => exact .inr ⟨_, nodes, .loop (recorded stepped)⟩
      | next t =>
        rcases ih t stepped with ⟨acts, u, passes, emptied, todo⟩ | ⟨acts, nodes, stopped⟩
        · have same := roots_of_step frames stepped
          exact .inl ⟨_, u, .step (recorded stepped) passes, emptied, todo.trans same⟩
        · exact .inr ⟨_, nodes, .next (recorded stepped) stopped⟩

/-- The search for the next root returns wherever a search does not go on for ever. -/
theorem returns (ending : Acc (fun t s => s.step successors = .next t) s) :
    Returns successors s := by
  intro root todo free start
  obtain ⟨_, _, marks, order⟩ := s
  subst free start
  -- The root is passed over or entered, and the search goes on from there.
  have first : ∃ t, (⟨root :: todo, [], marks, order⟩ : Sorter α cmp).step successors = .next t ∧
      t.roots = todo := by
    simp only [step]
    split
    · exact ⟨_, rfl, rfl⟩
    · exact ⟨_, rfl, rfl⟩
  obtain ⟨t, stepped, rfl⟩ := first
  rcases exists_emptied (ending.inv stepped) with ⟨acts, u, passes, emptied, same⟩ | stopped
  · exact .inl ⟨_, u, .step (recorded stepped) passes, emptied, same⟩
  · obtain ⟨acts, nodes, stopped⟩ := stopped
    exact .inr ⟨_, nodes, .next (recorded stepped) stopped⟩

/-- A search passes only through what is reachable. -/
theorem Passes.within {acts : List (Act α)} (search : Passes successors s acts t)
    (within : s.Within roots successors) : t.Within roots successors := by
  -- The induction is on the turns, none of which meets anything else.
  induction search with
  | here => exact within
  | step stepped _ ih => exact ih (within_of_step within (stepRecorded_eq_iff.mp stepped).1)

end Sorter

end BuildGraph.DepthFirst
