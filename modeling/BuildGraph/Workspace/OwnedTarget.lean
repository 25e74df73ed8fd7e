import BuildGraph.Workspace

/-! Targets seen together with the projects that declare them. -/

namespace BuildGraph

/-- A target and the project that declares it. -/
structure OwnedTarget where
  -- The whole project is kept, since a target alone does not know where it belongs.
  project : Project
  target : Target
deriving DecidableEq, Inhabited, Repr

namespace OwnedTarget

/-- The path of the project that declares a target. -/
def path (t : OwnedTarget) : Path :=
  t.project.path

/-- The name of a target. -/
def name (t : OwnedTarget) : String :=
  t.target.name

/-- The identity of a target. -/
def id (t : OwnedTarget) : TargetId :=
  -- The path is that of the project in its own spelling, and the name is the one that the target
  -- carries.
  ⟨t.path, t.name⟩

/-- The node that stands for a target. -/
def toDependency (t : OwnedTarget) : Dependency :=
  -- Whatever the declaring project knows besides is not part of the node.
  t.id.toDependency

/-- Whatever else is known of them, targets are alike when their identities are. -/
instance : BEq OwnedTarget where
  beq a b := a.id == b.id

/-- Targets come in the order of their identities. -/
instance : Ord OwnedTarget where
  compare := compareOn id

instance : Std.TransOrd OwnedTarget :=
  inferInstanceAs (Std.TransCmp (compareOn id))

/-- Any two targets can be compared. -/
def partialCompare (a b : OwnedTarget) : Option Ordering :=
  -- Defined by the order, so the two can never disagree.
  some (compare a b)

end OwnedTarget

namespace Project

/-- The targets that a project declares, in order of declaration. -/
def owned (p : Project) : List OwnedTarget :=
  -- The key under which a target is declared plays no part.
  p.targets.values.map (OwnedTarget.mk p)

end Project

namespace Workspace

/-- The targets of all projects, by the paths of the projects and in order of declaration. -/
def owned (w : Workspace) : List OwnedTarget :=
  -- Targets of one identity, if there are any, are all listed.
  w.projects.values.flatMap Project.owned

/-- The targets of all projects; of those with one identity, the last one met. -/
def allTargets (w : Workspace) : SortedSet OwnedTarget :=
  -- The order is that of the identities, wherever a target was declared.
  .collect w.owned

/-- The target declared under `id`, with its project. -/
def ownedTarget? (w : Workspace) (id : TargetId) : Option OwnedTarget := do
  -- Here the keys decide, and not the path and the name that the project and the target carry.
  let project ← w.projects.get? id.path
  let target ← project.targets.get? id.name
  return ⟨project, target⟩

/-- The targets of the project at `path`. -/
def targetsAt (w : Workspace) (path : Path) : SortedSet OwnedTarget :=
  -- A path without a project has no targets.
  .collect <| (w.projects.get? path).elim [] Project.owned

/-- The targets that are built by a script of their own. -/
def foreignBuildTargets (w : Workspace) : SortedSet OwnedTarget :=
  -- Pruned or not, these are all of them.
  w.allTargets.filter fun t => t.target.foreignBuild.isSome

/-- What is declared under some name is one of the targets of the workspace. -/
theorem mem_owned_of_ownedTarget? {w : Workspace} {id : TargetId} {t : OwnedTarget}
    (found : w.ownedTarget? id = some t) : t ∈ w.owned := by
  -- Both look-ups return values of the maps they search.
  simp only [ownedTarget?, SortedMap.get?, SortedMap.find?, DeclaredMap.get?, Option.bind_eq_bind,
    Option.bind_eq_some_iff, Option.map_eq_some_iff, Option.pure_def, Option.some.injEq] at found
  obtain ⟨project, ⟨entry, at_path, rfl⟩, target, ⟨declared, at_name, rfl⟩, rfl⟩ := found
  simp only [owned, Project.owned, SortedMap.values, DeclaredMap.values, List.mem_flatMap,
    List.mem_map]
  exact ⟨entry.2, ⟨entry, List.mem_of_find?_eq_some at_path, rfl⟩, declared.2,
    ⟨declared, List.mem_of_find?_eq_some at_name, rfl⟩, rfl⟩

end Workspace

end BuildGraph
