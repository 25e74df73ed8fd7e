import BuildGraph.Ledger
import BuildGraph.PassError
import BuildGraph.Workspace.Query

/-! Live targets give way to artefacts that are there already, and what only they needed is pruned.
-/

namespace BuildGraph

/-- Artefacts by the names of the targets that they can stand in for. -/
abbrev ArtifactTable :=
  -- An artefact is meant for every target of its name, in whatever project that is.
  SortedMap String Prebuilt

/-- The relation in which `artifact` takes the place of the target `id` and of its output. -/
def Dependencies.redirect (d : Dependencies) (id : TargetId) (artifact : Dependency) :
    Dependencies :=
  -- Where nothing was taken out, nothing is put in, so sets without the target stay what they are.
  d.map fun nodes =>
    let others := nodes.filter fun node => !node.isTarget id && !node.isOutputOf id
    if others.size = nodes.size then nodes else others.insert artifact

namespace Workspace

/-- The targets that are not pruned. -/
def liveTargets (w : Workspace) : SortedSet OwnedTarget :=
  -- Live means no more than not pruned.
  w.allTargets.filter fun t => !t.target.pruned

/-- The live targets for which a table has an artefact. -/
def replaceable (w : Workspace) (table : ArtifactTable) : List Replacement :=
  -- Pruned targets are never replaced, whatever the table holds.
  w.liveTargets.toList.filterMap fun t => (table.get? t.name).map (⟨t.id, ·⟩)

/-- The live targets that no live target depends on, and those that were requested. -/
def liveRoots (w : Workspace) (l : Ledger) : SortedSet TargetId :=
  -- What is consumed is told by live consumers only, and a loop consumes itself.
  let consumed : SortedSet TargetId := .collect <| w.liveTargets.toList.flatMap fun t =>
    (w.directDependencies t.id).toList.map OwnedTarget.id
  .collect <| (w.liveTargets.toList.map OwnedTarget.id).filter fun id =>
    !consumed.contains id || l.isRequested id

/-- The workspace with one target replaced. -/
def replace (w : Workspace) (r : Replacement) : Workspace :=
  -- The target itself stays where it is, pruned.
  let w := { w with dependencies := w.dependencies.redirect r.target r.artifact.dependency }
  w.modifyTarget r.target fun t => { t with pruned := true }

/-- The workspace with every target pruned that is not needed by a live one of the `roots`. -/
def pruneUnreachable (w : Workspace) (roots : SortedSet TargetId) : Except PassError Workspace := do
  -- Flags are only set here and never cleared, and the search passes through pruned targets.
  let live : SortedSet OwnedTarget := .collect <|
    (roots.toList.filterMap w.ownedTarget?).filter fun t => !t.target.pruned
  let needed ← (w.closure live).mapError .cyclicDependency
  let kept : SortedSet TargetId := .collect (needed.toList.map OwnedTarget.id)
  return w.mapTargets fun path t =>
    if kept.contains ⟨path, t.name⟩ then t else { t with pruned := true }

/-- The workspace with artefacts of a table in the place of live targets, and without what only
these needed; and the ledger with these replacements. -/
def substitute (w : Workspace) (table : ArtifactTable) (l : Ledger) :
    Except PassError (Workspace × Ledger) :=
  match w.replaceable table with
  -- Where nothing is replaced, nothing that was needed is no longer needed.
  | [] => .ok (w, l)
  | replacements => do
    let replaced := replacements.foldl Workspace.replace w
    return (← replaced.pruneUnreachable (w.liveRoots l),
      replacements.foldl Ledger.recordReplacement l)

end Workspace

end BuildGraph
