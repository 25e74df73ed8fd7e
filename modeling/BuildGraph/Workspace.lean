import BuildGraph.DeclaredMap
import BuildGraph.SortedMap
import BuildGraph.Target

/-! The projects of a workspace, their targets, and the dependencies between nodes. -/

namespace BuildGraph

/-- Where the sources of a project come from. -/
inductive Origin where
  | local
  | external
deriving DecidableEq, Inhabited, Repr

/-- Targets that are tested together. -/
structure TestPlan where
  name : String
  targets : List TargetId := []
deriving DecidableEq, BEq, Inhabited, Repr

/-- A place and the targets declared there. -/
structure Project where
  path : Path
  name : String
  origin : Origin := .local
  targets : DeclaredMap String Target := {}
  testPlans : List TestPlan := []
deriving DecidableEq, BEq, Inhabited, Repr

namespace Project

/-- Whether the sources of a project come from elsewhere. -/
def isExternal (p : Project) : Bool :=
  -- An origin that is not given counts as local.
  p.origin = .external

/-- The project with a target declared under its own name. -/
def declare (p : Project) (t : Target) : Project :=
  -- A target is never declared under another name than its own.
  { p with targets := p.targets.insert t.name t }

/-- The project with one more test plan. -/
def addTestPlan (p : Project) (plan : TestPlan) : Project :=
  -- Plans are listed as they come; one name may occur more than once.
  { p with testPlans := p.testPlans ++ [plan] }

end Project

/-- For each node that depends on others, the nodes it depends on. -/
abbrev Dependencies :=
  -- Sets are held by value, so two nodes never share what they depend on.
  SortedMap Dependency (SortedSet Dependency)

/-- A workspace: projects by their paths, and dependencies between nodes. -/
structure Workspace where
  -- Nothing keeps the two fields in step: an edge may name a target that no project declares.
  projects : SortedMap Path Project := {}
  dependencies : Dependencies := {}
deriving DecidableEq, BEq, Inhabited, Repr

/-- The relation with `source` depending on each of `nodes` as well. -/
def Dependencies.add (d : Dependencies) (source : Dependency) (nodes : List Dependency) :
    Dependencies :=
  -- What the node depends on already stays.
  d.alter source fun held => (held.getD {}).insertAll nodes

namespace Workspace

/-- The workspace with a project under its own path, in the place of one that was there. -/
def addProject (w : Workspace) (p : Project) : Workspace :=
  -- The key is the path of the project, so the two agree for projects that are added this way.
  { w with projects := w.projects.insert p.path p }

/-- The workspace in which `source` depends on `node`. -/
def addDependency (w : Workspace) (source node : Dependency) : Workspace :=
  -- Neither node has to be declared anywhere.
  { w with dependencies := w.dependencies.add source [node] }

/-- The target declared under a name in the project at a path. -/
def target? (w : Workspace) (id : TargetId) : Option Target := do
  -- Both keys must be there; a project does not answer for the name of another.
  let project ← w.projects.get? id.path
  project.targets.get? id.name

/-- The workspace with the target declared under `id`, if there is one, passed through `f`. -/
def modifyTarget (w : Workspace) (id : TargetId) (f : Target → Target) : Workspace :=
  -- Where there is no such target the workspace stays what it is.
  { w with projects := w.projects.modify id.path fun p =>
      { p with targets := p.targets.modify id.name f } }

/-- The workspace with every target passed through `f`, which is told the path of its project. -/
def mapTargets (w : Workspace) (f : Path → Target → Target) : Workspace :=
  -- Targets are told by the path that their project carries, which is not asked to be its key.
  { w with projects := w.projects.map fun p => { p with targets := p.targets.map (f p.path) } }

/-- The targets of all projects, by the paths of the projects and in order of declaration. -/
def targets (w : Workspace) : List Target :=
  -- Pruned targets are among them.
  w.projects.values.flatMap fun p => p.targets.values

/-- The test plans of all projects. -/
def testPlans (w : Workspace) : List TestPlan :=
  -- The plans of one project stay together and in their order.
  w.projects.values.flatMap Project.testPlans

/-- The identities of the targets that are left out of the builds to come. -/
def prunedTargets (w : Workspace) : SortedSet TargetId :=
  -- The names are those that the targets carry.
  .collect <| w.projects.values.flatMap fun p =>
    (p.targets.values.filter Target.pruned).map fun t => ⟨p.path, t.name⟩

end Workspace

end BuildGraph
