import BuildGraph.Proofs.DepthFirst.Parallel
import BuildGraph.Proofs.Outline

/-! The closure of some targets is found unless they lead to a loop, and it has exactly what they
lead to; it depends on the outline of the workspace and on its target edges only. -/

namespace BuildGraph

open Relation

namespace Workspace

variable {w w' : Workspace}

/-- The targets that the target edges of a target name. -/
def targetEdges (w : Workspace) (id : TargetId) : List TargetId :=
  -- The targets need not be declared anywhere.
  (w.dependenciesOf id).toList.filterMap Dependency.targetId?

/-- The direct dependencies are what is found under the target edges. -/
theorem directDependencies_eq (id : TargetId) :
    w.directDependencies id = .collect ((w.targetEdges id).filterMap w.ownedTarget?) := by
  -- Both look for a target under each node that names one.
  rw [directDependencies, targetEdges, List.filterMap_filterMap]
  rfl

/-- Which target edges there are depends on the identity only. -/
theorem targetEdges_congr {a b : TargetId} (same : a.identity = b.identity) :
    w.targetEdges a = w.targetEdges b := by
  -- Stored sets are found under every spelling of a node.
  rw [targetEdges, targetEdges, dependenciesOf_congr same]

/-- One identity leads to another when a direct dependency of the first has the second. -/
def Leads (w : Workspace) (a b : Identity) : Prop :=
  -- Any spelling of the first identity will do.
  ∃ id : TargetId, id.identity = a ∧ ∃ t ∈ (w.directDependencies id).toList, t.identity = b

/-- An identity leads to what is found under one of its target edges. -/
theorem leads_iff {id : TargetId} {k : Identity} : w.Leads id.identity k ↔
    ∃ edge ∈ w.targetEdges id, ∃ t, w.ownedTarget? edge = some t ∧ t.identity = k := by
  -- Collecting what is found loses no identity, and all spellings of an identity have its edges.
  have found : ∀ other : TargetId, (∃ t ∈ (w.directDependencies other).toList, t.identity = k) ↔
      ∃ edge ∈ w.targetEdges other, ∃ t, w.ownedTarget? edge = some t ∧ t.identity = k := by
    intro other
    rw [← List.mem_map, directDependencies_eq, SortedSet.mem_identity_collect]
    simp only [List.mem_map, List.mem_filterMap]
    constructor
    · rintro ⟨t, ⟨edge, member, there⟩, same⟩
      exact ⟨edge, member, t, there, same⟩
    · rintro ⟨edge, member, t, there, same⟩
      exact ⟨t, ⟨edge, member, there⟩, same⟩
  constructor
  · rintro ⟨other, same, next⟩
    rw [← targetEdges_congr same]
    exact (found other).mp next
  · intro next
    exact ⟨id, rfl, (found id).mpr next⟩

/-- An identity leads to those of its direct dependencies. -/
theorem leads_iff_mem (t : OwnedTarget) (k : Identity) : w.Leads t.identity k ↔
    k ∈ (w.directDependencies t.id).toList.map OwnedTarget.identity := by
  -- Collecting the direct dependencies loses none of their identities.
  rw [OwnedTarget.identity, leads_iff, directDependencies_eq, SortedSet.mem_identity_collect]
  simp only [List.mem_map, List.mem_filterMap]
  constructor
  · rintro ⟨edge, member, u, there, same⟩
    exact ⟨u, ⟨edge, member, there⟩, same⟩
  · rintro ⟨u, ⟨edge, member, there⟩, same⟩
    exact ⟨edge, member, u, there, same⟩

/-- Fewer edges between the same targets lead to nothing new. -/
theorem Leads.mono (same : w'.outline = w.outline)
    (fewer : ∀ id, ∀ edge ∈ w'.targetEdges id, edge ∈ w.targetEdges id) {a b : Identity}
    (next : w'.Leads a b) : w.Leads a b := by
  -- The same is found under an edge on both sides, up to what passes may change.
  obtain ⟨id, rfl, next⟩ := next
  obtain ⟨edge, member, t, found, rfl⟩ := leads_iff.mp ⟨id, rfl, next⟩
  obtain ⟨u, there, outline⟩ := exists_ownedTarget?_of_outline same found
  refine leads_iff.mpr ⟨edge, fewer id edge member, u, there, ?_⟩
  rw [OwnedTarget.identity, OwnedTarget.identity, OwnedTarget.id_of_outline outline]

/-- Workspaces with the same targets and the same target edges lead to the same. -/
theorem leads_of_outline (same : w'.outline = w.outline)
    (edges : ∀ id, w'.targetEdges id = w.targetEdges id) : w'.Leads = w.Leads := by
  -- Each side has no more edges than the other.
  funext a b
  refine propext ⟨.mono same fun id edge member => ?_, .mono same.symm fun id edge member => ?_⟩
  · rwa [← edges]
  · rwa [edges]

/-- All that some targets lead to, themselves included. -/
def Needs (w : Workspace) (sources : List OwnedTarget) (k : Identity) : Prop :=
  -- No step at all is allowed, so the sources need themselves.
  ∃ s ∈ sources, ReflTransGen w.Leads s.identity k

/-- What a needed identity leads to is needed. -/
theorem Needs.tail {sources : List OwnedTarget} {a b : Identity} (needed : w.Needs sources a)
    (next : w.Leads a b) : w.Needs sources b := by
  -- The walk from the source goes on by one step.
  obtain ⟨s, given, path⟩ := needed
  exact ⟨s, given, path.tail next⟩

/-- A closure has exactly what its sources need, and none of that lies on a loop. -/
theorem closure_eq_ok {sources needed : SortedSet OwnedTarget}
    (closed : w.closure sources = .ok needed) :
    (∀ k, k ∈ needed.toList.map OwnedTarget.identity ↔ w.Needs sources.toList k) ∧
      ∀ k, w.Needs sources.toList k → ¬ TransGen w.Leads k k := by
  -- The closure collects what the search lists, and the search lists what the sources lead to.
  rw [closure] at closed
  split at closed
  · rename_i order sorted
    cases closed
    obtain ⟨_, settled, members⟩ := DepthFirst.sort_eq_ok OwnedTarget.identity
      (fun _ _ => OwnedTarget.compare_eq_iff) leads_iff_mem sorted
    refine ⟨fun k => SortedSet.mem_identity_collect.trans (members k), fun k needed => ?_⟩
    exact settled.acyclic (List.mem_reverse.mpr ((members k).mpr needed))
  · cases closed

/-- Where there is no closure, the sources need something that lies on a loop. -/
theorem closure_eq_error {sources : SortedSet OwnedTarget} {loop : List TargetId}
    (stopped : w.closure sources = .error loop) :
    ∃ k, w.Needs sources.toList k ∧ TransGen w.Leads k k := by
  -- The search stops only at a loop that some source leads to.
  rw [closure] at stopped
  split at stopped
  · cases stopped
  · rename_i nodes sorted
    obtain ⟨s, given, k, path, loop⟩ := DepthFirst.sort_eq_error OwnedTarget.identity
      (fun _ _ => OwnedTarget.compare_eq_iff) leads_iff_mem sorted
    exact ⟨k, ⟨s, given, path⟩, loop⟩

/-- There is a closure where nothing that is needed lies on a loop. -/
theorem exists_closure {sources : SortedSet OwnedTarget}
    (acyclic : ∀ k, w.Needs sources.toList k → ¬ TransGen w.Leads k k) :
    ∃ needed, w.closure sources = .ok needed := by
  -- An error would show a loop below the sources.
  cases result : w.closure sources with
  | ok needed => exact ⟨needed, rfl⟩
  | error loop =>
    obtain ⟨k, needed, turned⟩ := closure_eq_error result
    exact absurd turned (acyclic k needed)

/-- The identities of the direct dependencies, as they are spelled. -/
theorem id_directDependencies (id : TargetId) :
    (w.directDependencies id).toList.map OwnedTarget.id =
      (SortedSet.collect ((w.targetEdges id).filterMap fun edge =>
        (w.ownedTarget? edge).map OwnedTarget.id)).toList := by
  -- Targets are ordered as their identities are, so that collecting commutes with naming.
  rw [directDependencies_eq, ← SortedSet.toList_collect_map OwnedTarget.compare_id,
    List.map_filterMap]

/-- Workspaces with the same targets and the same target edges have closures of the same
identities, or the same loops. -/
theorem id_closure_of_outline (same : w'.outline = w.outline)
    (edges : ∀ id, w'.targetEdges id = w.targetEdges id) {sources' sources : SortedSet OwnedTarget}
    (ids : sources'.toList.map OwnedTarget.id = sources.toList.map OwnedTarget.id) :
    (w'.closure sources').map (fun needed => needed.toList.map OwnedTarget.id) =
      (w.closure sources).map fun needed => needed.toList.map OwnedTarget.id := by
  -- Targets correspond when they have the same identity, and compare as their identities do.
  have agree : Agree (fun t u : OwnedTarget => t.id = u.id) compare compare := by
    intro t u first t' u' second
    rw [← OwnedTarget.compare_id, first, second, OwnedTarget.compare_id]
  have found : (fun edge => (w'.ownedTarget? edge).map OwnedTarget.id) =
      fun edge => (w.ownedTarget? edge).map OwnedTarget.id :=
    funext (id_ownedTarget?_of_outline same)
  have next : ∀ t u : OwnedTarget, t.id = u.id →
      List.Forall₂ (fun t u : OwnedTarget => t.id = u.id) (w'.directDependencies t.id).toList
        (w.directDependencies u.id).toList := by
    intro t u first
    rw [forall₂_image_iff, id_directDependencies, id_directDependencies, edges, found, first]
  -- Both searches have corresponding roots and successors.
  have search := DepthFirst.sort_parallel agree (forall₂_image_iff.mpr ids) next
    (w'.finitelyReachable sources'.toList) (w.finitelyReachable sources.toList)
  rw [closure, closure]
  generalize DepthFirst.sort compare sources'.toList _ _ = x at search ⊢
  generalize DepthFirst.sort compare sources.toList _ _ = y at search ⊢
  cases search with
  | ok order =>
    -- Collecting an order commutes with naming its targets.
    simp only [Except.map, ← SortedSet.toList_collect_map OwnedTarget.compare_id,
      forall₂_image_iff.mp order]
  | error loop => simp only [Except.map, forall₂_image_iff.mp loop]

end Workspace

end BuildGraph
