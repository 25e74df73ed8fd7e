import Mathlib.Data.List.Nodup
import BuildGraph.DepthFirst.Table
import BuildGraph.Proofs.Collections
import BuildGraph.Proofs.Trace

/-! A depth-first search sorts all that its roots lead to, unless some of that lies on a loop; the
sort fails on no other account. -/

namespace BuildGraph.DepthFirst

open Relation

universe u v

variable {α : Type u} {κ : Type v} {cmp : α → α → Ordering} {roots : List α}
  {successors : α → List α}

/-- Nodes that compare equal have successors that compare equal. -/
def Respects (cmp : α → α → Ordering) (successors : α → List α) : Prop :=
  -- Where only equal nodes compare equal, every function respects the comparison.
  ∀ a b, cmp a b = .eq → ∀ c ∈ successors a, ∃ d ∈ successors b, cmp c d = .eq

/-- One node leads to another in a single step. -/
def Next (successors : α → List α) (a b : α) : Prop :=
  -- Here spellings matter, as they do for the successor function.
  b ∈ successors a

/-- A node leads back to itself in one step or more, in whatever spelling. -/
def OnLoop (cmp : α → α → Ordering) (successors : α → List α) (a : α) : Prop :=
  -- The way may end at another spelling than it began with.
  ∃ b, TransGen (Next successors) a b ∧ cmp a b = .eq

/-- A list of exactly what some roots lead to, with each node once and behind its successors. -/
structure Topological (cmp : α → α → Ordering) (roots : List α) (successors : α → List α)
    (order : List α) : Prop where
  reachable : ∀ a ∈ order, Reachable roots successors a
  once : ∀ a, Reachable roots successors a → order.countP (fun b => cmp a b == .eq) = 1
  -- What stands before a node does not include the node itself.
  behind : ∀ before a after, order = before ++ a :: after →
    ∀ b ∈ successors a, ∃ c ∈ before, cmp b c = .eq

/-- What compares by identity respects every function. -/
theorem Respects.of_lawful [Std.TransCmp cmp] [Std.LawfulEqCmp cmp] (successors : α → List α) :
    Respects cmp successors := by
  -- Nodes that compare equal are one node, with one list of successors.
  intro a b same c next
  obtain rfl : a = b := Std.LawfulEqCmp.eq_of_compare same
  exact ⟨c, next, Std.ReflCmp.compare_self⟩

/-- The roots lead to what a walk from one of them ends at. -/
theorem reachable_iff {a : α} :
    Reachable roots successors a ↔ ∃ r ∈ roots, ReflTransGen (Next successors) r a := by
  constructor
  · -- The induction is on how the node is reached, and each step makes the walk longer.
    intro reached
    induction reached with
    | root given => exact ⟨_, given, .refl⟩
    | step _ next ih =>
      obtain ⟨r, given, path⟩ := ih
      exact ⟨r, given, path.tail next⟩
  · intro ⟨r, given, path⟩
    induction path with
    | refl => exact .root given
    | tail _ next ih => exact .step ih next

/-- In a settled list, what a node leads to stands behind it. -/
theorem Settled.behind {leads : κ → κ → Prop} {before after : List κ} {k b : κ}
    (settled : Settled leads (before ++ k :: after)) (next : leads k b) : b ∈ after := by
  -- The nodes in front are settled one after another.
  induction before with
  | nil => exact settled.1 b next
  | cons first rest ih => exact ih settled.2

namespace Sorter

/-- All that has been entered or listed is reachable. -/
def Keeps (s : Sorter α cmp) (roots : List α) (successors : α → List α) : Prop :=
  -- Nothing is said here about what is still to be looked at.
  (∀ f ∈ s.frames, Reachable roots successors f.node) ∧
    ∀ a ∈ s.order, Reachable roots successors a

/-- A step enters and lists nothing that is not reachable. -/
theorem Keeps.step [Std.TransCmp cmp] {s t : Sorter α cmp} (keeps : s.Keeps roots successors)
    (within : s.Within roots successors) (stepped : s.step successors = .next t) :
    t.Keeps roots successors := by
  -- Only a root or a pending node is entered, and only an entered node is listed.
  obtain ⟨entered, listed⟩ := keeps
  obtain ⟨start, pending⟩ := within
  cases turn stepped with
  | passRoot met => exact ⟨entered, listed⟩
  | enterRoot fresh => exact ⟨List.forall_mem_cons.mpr ⟨start _ (.head _), entered⟩, listed⟩
  | leave =>
    obtain ⟨here, others⟩ := List.forall_mem_cons.mp entered
    exact ⟨others, List.forall_mem_cons.mpr ⟨here, listed⟩⟩
  | pass visited =>
    obtain ⟨here, others⟩ := List.forall_mem_cons.mp entered
    exact ⟨List.forall_mem_cons.mpr ⟨here, others⟩, listed⟩
  | enter fresh =>
    -- The pending node is entered on top of the frame that it was pending at.
    obtain ⟨here, others⟩ := List.forall_mem_cons.mp entered
    have next := pending _ (.head _) _ (.head _)
    exact ⟨List.forall_mem_cons.mpr ⟨next, List.forall_mem_cons.mpr ⟨here, others⟩⟩, listed⟩

end Sorter

/-- A sort lists nothing that its roots do not lead to. -/
theorem reachable_of_sort [Std.TransCmp cmp] {finite : FinitelyReachable roots successors}
    {order : List α} (sorted : sort cmp roots successors finite = .ok order) :
    ∀ a ∈ order, Reachable roots successors a := by
  -- At the beginning nothing has been entered or listed, and the last turn returns the list.
  have within : ({ roots } : Sorter α cmp).Within roots successors :=
    ⟨fun _ given => .root given, by simp⟩
  have search := Sorter.yields_run finite ({ roots } : Sorter α cmp) within
  obtain ⟨t, ⟨keeps, _⟩, finished, _⟩ := search.last
    (fun s => s.Keeps roots successors ∧ s.Within roots successors)
    (fun _ _ ⟨keeps, within⟩ stepped =>
      ⟨keeps.step within stepped, Sorter.within_of_step within stepped⟩)
    ⟨⟨by simp, by simp⟩, within⟩
  cases Sorter.turn (finished order sorted) with
  | finish => exact fun a member => keeps.2 a (List.mem_reverse.mp member)

section Classes

variable [Std.TransCmp cmp]

/-- Nodes are alike when they compare equal. -/
def alike (cmp : α → α → Ordering) [Std.TransCmp cmp] : Setoid α where
  -- A comparison that is transitive and oriented gives an equivalence.
  r a b := cmp a b = .eq
  iseqv := ⟨fun _ => Std.ReflCmp.compare_self, Std.OrientedCmp.eq_symm, Std.TransCmp.eq_trans⟩

/-- A node up to its spelling. -/
def spelled (cmp : α → α → Ordering) [Std.TransCmp cmp] (a : α) : Quotient (alike cmp) :=
  -- Nodes are compared through this, so that membership in lists has its usual meaning.
  Quotient.mk (alike cmp) a

/-- Nodes compare equal exactly when they differ in spelling at most. -/
theorem compare_eq_iff_spelled (a b : α) : cmp a b = .eq ↔ spelled cmp a = spelled cmp b :=
  -- A spelling is the class of the nodes that compare equal.
  ⟨fun same => Quotient.sound same, fun same => Quotient.exact same⟩

/-- Some spelling of a node leads to some spelling of another. -/
def Leads (cmp : α → α → Ordering) [Std.TransCmp cmp] (successors : α → List α)
    (j k : Quotient (alike cmp)) : Prop :=
  -- One spelling may have successors that another does not have.
  ∃ a b, spelled cmp a = j ∧ Next successors a b ∧ spelled cmp b = k

variable (respects : Respects cmp successors)

include respects

/-- Every spelling of a node leads to the same nodes. -/
theorem leads_spelled_iff (a : α) (k : Quotient (alike cmp)) :
    Leads cmp successors (spelled cmp a) k ↔ k ∈ (successors a).map (spelled cmp) := by
  rw [List.mem_map]
  constructor
  · intro ⟨other, c, same, next, ends⟩
    -- The successor of the other spelling has a counterpart among those of this one.
    obtain ⟨d, member, also⟩ := respects other a ((compare_eq_iff_spelled other a).mpr same) c next
    exact ⟨d, member, ((compare_eq_iff_spelled c d).mp also).symm.trans ends⟩
  · intro ⟨d, member, ends⟩
    exact ⟨a, d, rfl, member, ends⟩

/-- A walk up to spelling is one between nodes as they are spelled. -/
theorem transGen_leads_iff {a : α} {k : Quotient (alike cmp)} :
    TransGen (Leads cmp successors) (spelled cmp a) k ↔
      ∃ b, TransGen (Next successors) a b ∧ spelled cmp b = k := by
  constructor
  · -- The induction is on the walk; it goes on from the node where the walk so far has ended.
    intro path
    induction path with
    | single next =>
      obtain ⟨b, member, ends⟩ := List.mem_map.mp ((leads_spelled_iff respects a _).mp next)
      exact ⟨b, .single member, ends⟩
    | tail _ next ih =>
      obtain ⟨b, walk, rfl⟩ := ih
      obtain ⟨c, member, ends⟩ := List.mem_map.mp ((leads_spelled_iff respects b _).mp next)
      exact ⟨c, walk.tail member, ends⟩
  · intro ⟨b, walk, ends⟩
    rw [← ends]
    exact walk.lift (spelled cmp) fun c d next => ⟨c, d, rfl, next, rfl⟩

/-- A node is on a loop exactly when it leads back to itself up to spelling. -/
theorem onLoop_iff {a : α} : OnLoop cmp successors a ↔
    TransGen (Leads cmp successors) (spelled cmp a) (spelled cmp a) := by
  -- A walk back to the node may end at any of its spellings.
  rw [transGen_leads_iff respects]
  refine exists_congr fun b => and_congr_right fun _ => ?_
  rw [compare_eq_iff_spelled, eq_comm]

/-- What the roots lead to up to spelling is what they lead to. -/
theorem exists_reachable_iff {k : Quotient (alike cmp)} :
    (∃ r ∈ roots, ReflTransGen (Leads cmp successors) (spelled cmp r) k) ↔
      ∃ a, Reachable roots successors a ∧ spelled cmp a = k := by
  -- A walk up to spelling is a walk between nodes that ends in some spelling.
  simp only [reachable_iff, reflTransGen_iff_eq_or_transGen, transGen_leads_iff respects]
  constructor
  · rintro ⟨r, given, rfl | ⟨b, walk, ends⟩⟩
    · exact ⟨r, ⟨r, given, .inl rfl⟩, rfl⟩
    · exact ⟨b, ⟨r, given, .inr walk⟩, ends⟩
  · rintro ⟨b, ⟨r, given, rfl | walk⟩, ends⟩
    · exact ⟨b, given, .inl ends.symm⟩
    · exact ⟨r, given, .inr ⟨b, walk, ends⟩⟩

/-- What a sort lists is a topological order. -/
theorem topological_of_sort {finite : FinitelyReachable roots successors} {order : List α}
    (sorted : sort cmp roots successors finite = .ok order) :
    Topological cmp roots successors order := by
  classical
  obtain ⟨distinct, settled, members⟩ :=
    sort_eq_ok (spelled cmp) compare_eq_iff_spelled (leads_spelled_iff respects) sorted
  constructor
  · exact reachable_of_sort sorted
  · -- Up to spelling, the list has each node that is reachable, and has it once.
    intro a reached
    have member : spelled cmp a ∈ order.map (spelled cmp) :=
      (members _).mpr ((exists_reachable_iff respects).mpr ⟨a, reached, rfl⟩)
    have counted : (order.map (spelled cmp)).count (spelled cmp a) = 1 :=
      List.count_eq_one_of_mem distinct member
    rw [List.count, List.countP_map] at counted
    rw [← counted]
    refine List.countP_congr fun b _ => ?_
    simp only [Function.comp_apply, beq_iff_eq, compare_eq_iff_spelled a b]
    exact eq_comm
  · -- The settled list is the order turned round.
    intro before a after parts b next
    have turned : (order.map (spelled cmp)).reverse = (after.map (spelled cmp)).reverse ++
        spelled cmp a :: (before.map (spelled cmp)).reverse := by
      simp [parts]
    rw [turned] at settled
    have there := settled.behind ((leads_spelled_iff respects a _).mpr (List.mem_map_of_mem next))
    obtain ⟨c, member, same⟩ := List.mem_map.mp (List.mem_reverse.mp there)
    exact ⟨c, member, (compare_eq_iff_spelled b c).mpr same.symm⟩

/-- A sort comes to an order exactly where nothing that its roots lead to lies on a loop. -/
theorem exists_sort_iff {finite : FinitelyReachable roots successors} :
    (∃ order, sort cmp roots successors finite = .ok order) ↔
      ∀ a, Reachable roots successors a → ¬ OnLoop cmp successors a := by
  constructor
  · -- A settled list has no loops, and all that is reachable is in the list.
    intro ⟨order, sorted⟩ a reached loop
    obtain ⟨_, settled, members⟩ :=
      sort_eq_ok (spelled cmp) compare_eq_iff_spelled (leads_spelled_iff respects) sorted
    have member : spelled cmp a ∈ order.map (spelled cmp) :=
      (members _).mpr ((exists_reachable_iff respects).mpr ⟨a, reached, rfl⟩)
    exact settled.acyclic (List.mem_reverse.mpr member) ((onLoop_iff respects).mp loop)
  · -- A sort that stops has met a node that leads back to itself.
    intro loopFree
    cases result : sort cmp roots successors finite with
    | ok order => exact ⟨order, rfl⟩
    | error nodes =>
      obtain ⟨r, given, k, path, turns⟩ :=
        sort_eq_error (spelled cmp) compare_eq_iff_spelled (leads_spelled_iff respects) result
      obtain ⟨a, reached, rfl⟩ := (exists_reachable_iff respects).mp ⟨r, given, path⟩
      exact absurd ((onLoop_iff respects).mpr turns) (loopFree a reached)

omit respects

/-- Whatever the roots, and whatever they lead to in finitely many nodes, the sort comes to an order
exactly where no node that the roots lead to lies on a loop; and that order has exactly the nodes
that the roots lead to, each once and behind all of its successors. -/
theorem sorts_unless_looped (respects : Respects cmp successors)
    (finite : FinitelyReachable roots successors) :
    ((∃ order, sort cmp roots successors finite = .ok order) ↔
      ∀ a, Reachable roots successors a → ¬ OnLoop cmp successors a) ∧
    ∀ order, sort cmp roots successors finite = .ok order →
      Topological cmp roots successors order :=
  -- The order is settled node by node, and a loop is all that can keep it from being made.
  ⟨exists_sort_iff respects, fun _ sorted => topological_of_sort respects sorted⟩

end Classes

/-- A table gives the same successors to all spellings of a node. -/
theorem respects_table {α : Type u} [Ord α] [Std.TransOrd α] (table : SortedMap α (List α)) :
    Respects compare table.successors := by
  -- The table is looked up up to spelling.
  intro a b same c next
  have successors : table.successors a = table.successors b := by
    rw [SortedMap.successors, SortedMap.successors, SortedMap.get?_congr same]
  exact ⟨c, successors ▸ next, Std.ReflCmp.compare_self⟩

namespace Sample

/-- What an application and a library of it need, with the paths in several spellings. -/
def needs : SortedMap Path (List Path) :=
  -- One node is written in three ways.
  .ofList [(⟨"/app"⟩, [⟨"/net"⟩, ⟨"/core"⟩]), (⟨"/net/"⟩, [⟨"//core/."⟩])]

/-- The application, asked for twice. -/
def wanted : List Path :=
  -- The second root is passed over.
  [⟨"/app/"⟩, ⟨"/app"⟩]

/-- Two names that need each other. -/
def ring : SortedMap String (List String) :=
  -- Either of the two may be met first.
  .ofList [("a", ["b"]), ("b", ["a"])]

end Sample

/-- Paths that are spelled in several ways are listed once, and names that need each other are not
sorted. -/
theorem sorts_unless_looped_of_sample :
    Respects compare Sample.needs.successors ∧
    sort compare Sample.wanted Sample.needs.successors
        (finitelyReachable_successors Sample.wanted Sample.needs) =
      .ok [⟨"//core/."⟩, ⟨"/net"⟩, ⟨"/app/"⟩] ∧
    Topological compare Sample.wanted Sample.needs.successors
      [⟨"//core/."⟩, ⟨"/net"⟩, ⟨"/app/"⟩] ∧
    (∀ a, Reachable Sample.wanted Sample.needs.successors a →
      ¬ OnLoop compare Sample.needs.successors a) ∧
    ¬ ∃ order, sort compare ["a"] Sample.ring.successors
      (finitelyReachable_successors ["a"] Sample.ring) = .ok order := by
  have respects := respects_table Sample.needs
  have ended : ({ roots := Sample.wanted } : Sorter Path compare).within
      Sample.needs.successors 20 = some (.ok [⟨"//core/."⟩, ⟨"/net"⟩, ⟨"/app/"⟩]) := rfl
  have sorted : sort compare Sample.wanted Sample.needs.successors
      (finitelyReachable_successors Sample.wanted Sample.needs) =
      .ok [⟨"//core/."⟩, ⟨"/net"⟩, ⟨"/app/"⟩] := sort_of_within ended
  obtain ⟨orders, listed⟩ := sorts_unless_looped respects
    (finitelyReachable_successors Sample.wanted Sample.needs)
  refine ⟨respects, sorted, listed _ sorted, orders.mp ⟨_, sorted⟩, ?_⟩
  -- The first name leads to the second, and that leads back.
  have there : Next Sample.ring.successors "a" "b" :=
    show "b" ∈ Sample.ring.successors "a" by decide
  have back : Next Sample.ring.successors "b" "a" :=
    show "a" ∈ Sample.ring.successors "b" by decide
  have loop : OnLoop compare Sample.ring.successors "a" := ⟨"a", .tail (.single there) back, rfl⟩
  have lawful : Respects compare Sample.ring.successors := .of_lawful _
  obtain ⟨orders, _⟩ := sorts_unless_looped lawful (finitelyReachable_successors ["a"] Sample.ring)
  intro sorted
  exact orders.mp sorted "a" (.root (.head _)) loop

end BuildGraph.DepthFirst
