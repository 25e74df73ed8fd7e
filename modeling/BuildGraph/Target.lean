import BuildGraph.Dependency
import BuildGraph.SortedSet

/-! Targets, and what is known of those that are built by a script of their own. -/

namespace BuildGraph

/-- What a target produces. -/
inductive Product where
  | app
  | framework
  | staticFramework
  | staticLibrary
  | dynamicLibrary
  | unitTests
  | uiTests
  /-- Nothing: the target only runs its scripts. -/
  | aggregate
deriving DecidableEq, Inhabited, Repr

/-- When a script runs, as seen from the compilation of its target. -/
inductive PhaseOrder where
  | before
  | after
deriving DecidableEq, Inhabited, Repr

/-- A script that runs as part of building a target. -/
structure BuildPhase where
  name : String
  order : PhaseOrder
  script : String
  inputPaths : List Path := []
  outputPaths : List Path := []
deriving DecidableEq, BEq, Inhabited, Repr

/-- Something that a foreign build reads. -/
inductive ForeignInput where
  | file (path : Path)
  | folder (path : Path)
  /-- Text that has a say in the build, but is no place to look at. -/
  | script (script : String)
deriving DecidableEq, BEq, Inhabited, Repr

/-- The path that an input is declared by, if it has one. -/
def ForeignInput.declaredPath? : ForeignInput → Option Path
  -- Scripts are told from paths here, and only paths can be watched for changes.
  | file path | folder path => some path
  | script _ => none

/-- What a foreign build produces; a relative path is seen from the project that owns it. -/
structure ForeignArtifact where
  path : Path
  linking : Linking
deriving DecidableEq, BEq, Inhabited, Repr

/-- How a target is built without the native toolchain. -/
structure ForeignBuild where
  script : String
  inputs : List ForeignInput := []
  output : ForeignArtifact
deriving DecidableEq, BEq, Inhabited, Repr

/-- A unit that can be built. -/
structure Target where
  name : String
  product : Product
  /-- Left out of the builds to come, and still there to be asked about. -/
  pruned : Bool := false
  phases : List BuildPhase := []
  tags : SortedSet String := {}
  foreignBuild : Option ForeignBuild := none
deriving DecidableEq, BEq, Inhabited, Repr

namespace Target

/-- Whether a target carries `tag`. -/
def hasTag (t : Target) (tag : String) : Bool :=
  -- Tags are told apart by their text.
  t.tags.contains tag

end Target

end BuildGraph
