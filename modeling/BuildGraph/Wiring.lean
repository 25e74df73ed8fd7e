import BuildGraph.Workspace.Query

/-! Foreign builds become targets that run a script, and their consumers depend on its output. -/

namespace BuildGraph

/-- The tag of targets that have been made to run a foreign build. -/
def aggregateTag : String :=
  -- Others may ask for this tag, so it is part of the interface.
  "graphmill:foreign-build-aggregate"

/-- The name of the phase that runs the foreign build of the target `name`. -/
def phaseName (name : String) : String :=
  -- The name tells the phase apart from those that a target brings itself.
  "Foreign Build: " ++ name

namespace ForeignBuild

/-- The phase that runs the foreign build of the target `name`. -/
def phase (b : ForeignBuild) (name : String) : BuildPhase where
  -- Inputs that are no paths are not declared, since they cannot be watched.
  name := phaseName name
  order := .before
  script := b.script
  inputPaths := b.inputs.filterMap ForeignInput.declaredPath?
  outputPaths := [b.output.path]

/-- The node for what the foreign build of the target `id` produces. -/
def outputNode (b : ForeignBuild) (id : TargetId) : Dependency :=
  -- It carries the identity of the target, so it can be traced back to it.
  .foreignOutput id.name id.path b.output.linking

end ForeignBuild

/-- The target `t` made to run the foreign build of the target `name`. -/
def Target.aggregated (t : Target) (name : String) (b : ForeignBuild) : Target :=
  -- A phase that was put there before is taken out first, so doing this twice is doing it once.
  { t with
    product := .aggregate
    phases := b.phase name :: t.phases.filter fun phase => phase.name ≠ phaseName name
    tags := t.tags.insert aggregateTag }

/-- The relation in which all that depends on the target `id` also depends on `output`, which is
one of its nodes. -/
def Dependencies.link (d : Dependencies) (id : TargetId) (output : Dependency) : Dependencies :=
  -- The output gets an entry of its own even where nothing depends on the target.
  (d.add output []).map fun nodes =>
    if nodes.toList.any (Dependency.isTarget id) then nodes.insert output else nodes

namespace Workspace

/-- The foreign builds of a workspace in the order of their targets. -/
def foreignBuilds (w : Workspace) : List (TargetId × ForeignBuild) :=
  -- Each is listed with the identity of its target, which the build itself does not know.
  w.foreignBuildTargets.toList.filterMap fun t => t.target.foreignBuild.map (t.id, ·)

/-- The workspace with one foreign build wired. -/
def wire (w : Workspace) (id : TargetId) (b : ForeignBuild) : Workspace :=
  -- The target is changed first, and then the edges; neither looks at the other.
  let w := w.modifyTarget id fun t => t.aggregated id.name b
  { w with dependencies := w.dependencies.link id (b.outputNode id) }

/-- The workspace with all foreign builds wired. -/
def wired (w : Workspace) : Workspace :=
  -- The list is fixed before the first build is wired, and wiring does not change it.
  w.foreignBuilds.foldl (fun w build => w.wire build.1 build.2) w

end Workspace

end BuildGraph
