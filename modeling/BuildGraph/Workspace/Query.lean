import BuildGraph.DepthFirst
import BuildGraph.Workspace.OwnedTarget

/-! Questions about one state of a workspace: edges, test plans, selections and closures. -/

namespace BuildGraph

/-- Which targets to keep of a given collection. -/
structure TargetFilter where
  -- The default keeps everything.
  /-- Members of this test plan only, unless names are included. -/
  testPlan : Option String := none
  /-- Targets of these names only, unless there are none. -/
  included : SortedSet String := {}
  /-- No targets of these names. -/
  excluded : SortedSet String := {}
  /-- No targets of external projects. -/
  localOnly : Bool := false
deriving DecidableEq, Inhabited, Repr

/-- The test plan that has a say: none once targets are included by name. -/
def TargetFilter.activePlan? (f : TargetFilter) : Option String :=
  -- Names that are included leave a plan without any say.
  f.testPlan.filter fun _ => f.included.isEmpty

namespace Workspace

variable (w : Workspace)

/-- The nodes that the target `id` depends on. -/
def dependenciesOf (id : TargetId) : SortedSet Dependency :=
  -- A node without an entry depends on nothing.
  (w.dependencies.get? id.toDependency).getD {}

/-- The nodes that depend on `node`. -/
def consumersOf (node : Dependency) : SortedSet Dependency :=
  -- Every entry is looked through, since the relation is kept in one direction only.
  .collect <| (w.dependencies.entries.filter fun e => e.2.contains node).map Prod.fst

/-- The targets that the target `id` depends on; those that are not there are passed over. -/
def directDependencies (id : TargetId) : SortedSet OwnedTarget :=
  -- Nodes of other kinds are passed over, too.
  .collect <| (w.dependenciesOf id).toList.filterMap fun node => do
    w.ownedTarget? (← node.targetId?)

/-- The first test plan of a name. -/
def testPlan? (name : String) : Option TestPlan :=
  -- Names of plans may be shared between projects, and the first one met counts.
  w.testPlans.find? fun plan => plan.name = name

/-- The targets that some test plan of a name lists. -/
def testPlanTargets (name : String) : SortedSet TargetId :=
  -- Unlike the look-up of a plan, this takes all plans of the name together.
  .collect <| (w.testPlans.filter fun plan => plan.name = name).flatMap TestPlan.targets

/-- Whether a target passes a filter. -/
def admits (f : TargetFilter) (t : OwnedTarget) : Bool :=
  -- The four conditions have no say in each other, apart from the plan, which included names switch
  -- off.
  f.activePlan?.all (fun plan => (w.testPlanTargets plan).contains t.id) &&
    (f.included.isEmpty || f.included.contains t.name) &&
    !f.excluded.contains t.name &&
    !(f.localOnly && t.project.isExternal)

/-- The targets of a list that pass a filter. -/
def select (f : TargetFilter) (targets : List OwnedTarget) : SortedSet OwnedTarget :=
  -- Of targets that compare equal, the last of the list stays.
  .collect <| targets.filter (w.admits f)

/-- Steps along target edges stay among the targets of the workspace. -/
theorem mem_owned_of_mem_directDependencies {id : TargetId} {t : OwnedTarget}
    (member : t ∈ (w.directDependencies id).toList) : t ∈ w.owned := by
  -- A collected member was looked up, and look-ups return targets of the workspace.
  obtain ⟨node, _, found⟩ := List.mem_filterMap.mp (SortedSet.mem_of_mem_collect member)
  obtain ⟨named, _, found⟩ := Option.bind_eq_some_iff.mp found
  exact mem_owned_of_ownedTarget? found

/-- Only finitely many targets can be reached along target edges. -/
theorem finitelyReachable (sources : List OwnedTarget) :
    FinitelyReachable sources fun t => (w.directDependencies t.id).toList :=
  -- Whatever is found is a target of the workspace, and there are finitely many of these.
  .of_closed (sources ++ w.owned) (fun _ given => List.mem_append_left _ given)
    fun _ _ _ next => List.mem_append_right _ (w.mem_owned_of_mem_directDependencies next)

/-- The sources and all targets they lead to along target edges; or else a loop among these. -/
def closure (sources : SortedSet OwnedTarget) : Except (List TargetId) (SortedSet OwnedTarget) :=
  -- The search lists what is needed first, and only its members matter here.
  match DepthFirst.sort compare sources.toList (fun t => (w.directDependencies t.id).toList)
      (w.finitelyReachable sources.toList) with
  | .ok order => .ok (.collect order)
  | .error loop => .error (loop.map OwnedTarget.id)

end Workspace

end BuildGraph
