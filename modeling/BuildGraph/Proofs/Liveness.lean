import BuildGraph.Proofs.Closure

/-! Which targets of a workspace are live, and what it means for a workspace to be a narrower one:
the same targets, of which no more are live, and no more target edges between them. -/

namespace BuildGraph

open Relation

namespace Workspace

variable {w w' w'' : Workspace}

/-- A target is declared under `id`, and it is not pruned. -/
def Live (w : Workspace) (id : TargetId) : Prop :=
  -- The key counts here, and the target may have another identity.
  ∃ t, w.target? id = some t ∧ t.pruned = false

/-- A target is live under `id` when it is found there and not pruned. -/
theorem live_iff {id : TargetId} :
    w.Live id ↔ ∃ t, w.ownedTarget? id = some t ∧ t.target.pruned = false := by
  -- The plain look-up forgets the project of what is found.
  simp only [Live, target?_eq, Option.map_eq_some_iff, exists_exists_and_eq_and]

/-- A target that is found is live exactly when it is not pruned. -/
theorem live_iff_of_found {id : TargetId} {t : OwnedTarget} (found : w.ownedTarget? id = some t) :
    w.Live id ↔ t.target.pruned = false := by
  -- There is only one target to look at.
  simp [live_iff, found]

/-- The targets that are live once every target has passed through a function. -/
theorem live_mapTargets {f : Path → Target → Target} {id : TargetId} :
    (w.mapTargets f).Live id ↔
      ∃ t, w.ownedTarget? id = some t ∧ (f t.path t.target).pruned = false := by
  rw [Live, target?_mapTargets]
  -- What is found is the image of what was found before.
  simp only [Option.map_eq_some_iff, exists_exists_and_eq_and]

/-- The targets that are live once one target has passed through a function. -/
theorem live_modifyTarget {f : Target → Target} {id k : TargetId} :
    (w.modifyTarget id f).Live k ↔ ∃ t, w.target? k = some t ∧
      (if id.identity = k.identity then f t else t).pruned = false := by
  rw [Live, target?_modifyTarget]
  -- What is found is the image of what was found before.
  simp only [Option.map_eq_some_iff, exists_exists_and_eq_and]

/-- Of the same targets, no more are live, and each has no more target edges. -/
structure Narrows (w' w : Workspace) : Prop where
  -- What passes do to a workspace after it was wired is never more than this.
  outline : w'.outline = w.outline
  edges : ∀ id, ∀ edge ∈ w'.targetEdges id, edge ∈ w.targetEdges id
  live : ∀ id, w'.Live id → w.Live id

namespace Narrows

/-- Every workspace narrows itself. -/
theorem refl (w : Workspace) : w.Narrows w :=
  -- Nothing is lost where nothing changes.
  ⟨rfl, fun _ _ member => member, fun _ live => live⟩

/-- What narrows a narrower workspace narrows the wider one. -/
theorem trans (second : w''.Narrows w') (first : w'.Narrows w) : w''.Narrows w where
  -- What is left after both steps was left after the first.
  outline := second.outline.trans first.outline
  edges id edge member := first.edges id edge (second.edges id edge member)
  live id live := first.live id (second.live id live)

/-- What leads to something in a narrower workspace leads there in the wider one. -/
theorem leads (narrow : w'.Narrows w) {a b : Identity} (path : ReflTransGen w'.Leads a b) :
    ReflTransGen w.Leads a b :=
  -- Each step of the path was there before.
  ReflTransGen.mono (fun _ _ => Leads.mono narrow.outline narrow.edges) a b path

/-- A loop of a narrower workspace is one of the wider one. -/
theorem turns (narrow : w'.Narrows w) {k : Identity} (loop : TransGen w'.Leads k k) :
    TransGen w.Leads k k :=
  -- Each step of the loop was there before.
  TransGen.mono (fun _ _ => Leads.mono narrow.outline narrow.edges) k k loop

/-- A live target of a narrower workspace is live in the wider one, under the same identity. -/
theorem exists_live (narrow : w'.Narrows w) {id : TargetId} {t : OwnedTarget}
    (found : w'.ownedTarget? id = some t) (live : w'.Live id) :
    ∃ u, w.ownedTarget? id = some u ∧ w.Live id ∧ u.id = t.id := by
  -- Outlines are the same, and they have the identities.
  obtain ⟨u, there, same⟩ := exists_ownedTarget?_of_outline narrow.outline found
  exact ⟨u, there, narrow.live id live, (OwnedTarget.id_of_outline same).symm⟩

end Narrows

/-- Nothing that a live target leads to lies on a loop. -/
def LoopFree (w : Workspace) : Prop :=
  -- Identities are what loops run through, and a target counts under every key it is found by.
  ∀ id t, w.ownedTarget? id = some t → w.Live id →
    ∀ k, ReflTransGen w.Leads t.identity k → ¬ TransGen w.Leads k k

/-- A narrower workspace has no new loops below its live targets. -/
theorem LoopFree.narrow (free : w.LoopFree) (narrow : w'.Narrows w) : w'.LoopFree := by
  -- A walk or a loop of the narrower workspace is one of the wider one.
  intro id t found live k path loop
  obtain ⟨u, there, also, same⟩ := narrow.exists_live found live
  have path := narrow.leads path
  rw [OwnedTarget.identity, ← same] at path
  exact free id u there also k path (narrow.turns loop)

/-- Whatever is found under a target edge of a live target is live itself. -/
def Sustained (w : Workspace) : Prop :=
  -- Edges are followed by keys, so that targets count under the keys they are found by.
  ∀ id t, w.ownedTarget? id = some t → w.Live id →
    ∀ edge ∈ w.targetEdges t.id, ∀ d, w.ownedTarget? edge = some d → w.Live edge

/-- A narrower workspace is sustained if no edge of its live targets has lost what is found
there. -/
theorem Sustained.narrow (sustained : w.Sustained) (narrow : w'.Narrows w)
    (keeps : ∀ id t, w.ownedTarget? id = some t → w'.Live id →
      ∀ edge ∈ w'.targetEdges t.id, ∀ d, w.ownedTarget? edge = some d → w.Live edge →
        w'.Live edge) : w'.Sustained := by
  intro id t found live edge next d there
  -- The same targets are found in the wider workspace, where the edge leads to a live one.
  obtain ⟨u, before, also, same⟩ := narrow.exists_live found live
  obtain ⟨e, given, _⟩ := exists_ownedTarget?_of_outline narrow.outline there
  rw [← same] at next
  have wide := sustained id u before also edge (narrow.edges u.id edge next) e given
  exact keeps id u before live edge next e given wide

/-- In a sustained workspace, no live target depends directly on one that is pruned. -/
theorem Sustained.directDependencies (sustained : w.Sustained) {t d : OwnedTarget}
    (member : t ∈ w.owned) (live : t.target.pruned = false)
    (next : d ∈ (w.directDependencies t.id).toList) : d.target.pruned = false := by
  -- What is returned was looked up under some edge.
  obtain ⟨id, found⟩ := mem_owned_iff.mp member
  rw [directDependencies_eq] at next
  obtain ⟨edge, given, there⟩ := List.mem_filterMap.mp (SortedSet.mem_of_mem_collect next)
  have kept := sustained id t found ((live_iff_of_found found).mpr live) edge given d there
  exact (live_iff_of_found there).mp kept

end Workspace

end BuildGraph
