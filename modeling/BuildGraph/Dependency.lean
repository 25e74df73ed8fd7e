import BuildGraph.Path

/-! The nodes between which dependencies run, and the identities of targets. -/

namespace BuildGraph

/-- How a binary that was not built here is linked by its consumers. -/
inductive Linking where
  /-- It becomes part of the consumer when that is built. -/
  | static
  /-- It is loaded by the consumer when that runs. -/
  | dynamic
deriving DecidableEq, Inhabited, Repr

/-- Static linking comes before dynamic linking. -/
def Linking.rank : Linking → Nat
  -- The numbers only serve the order below.
  | static => 0
  | dynamic => 1

instance : Ord Linking where
  compare := compareOn Linking.rank

instance : Std.TransOrd Linking :=
  inferInstanceAs (Std.TransCmp (compareOn Linking.rank))

/-- The identity of a target: the path of its project and its name there. -/
structure TargetId where
  -- Neither part is enough: names are shared between projects, and a project has many targets.
  path : Path
  name : String
deriving DecidableEq, BEq, Inhabited, Repr

namespace TargetId

/-- Identities come in the order of their paths, and then of their names. -/
instance : Ord TargetId where
  compare := compareLex (compareOn path) (compareOn name)

instance : Std.TransOrd TargetId :=
  inferInstanceAs (Std.TransCmp (compareLex (compareOn path) (compareOn name)))

/-- The names are compared only where the paths can be, and are alike. -/
def partialCompare (a b : TargetId) : Option Ordering :=
  -- Defined part by part, and not by way of the order.
  match a.path.partialCompare b.path with
  | some .eq => some (compare a.name b.name)
  | paths => paths

instance : ToString TargetId where
  toString id := id.path.text ++ ":" ++ id.name

end TargetId

/-- A node of the dependency relation. -/
inductive Dependency where
  -- Only the first kind stands for something that this workspace declares.
  /-- A target that lives in the graph. -/
  | target (name : String) (path : Path)
  /-- The artefact of a target that is built by a script of its own. -/
  | foreignOutput (name : String) (path : Path) (linking : Linking)
  /-- A framework bundle that is there already. -/
  | framework (path : Path) (linking : Linking)
  /-- A library that is there already. -/
  | library (path : Path) (linking : Linking)
  /-- A product of a resolved package. -/
  | package (product : String)
  /-- A component that comes with the platform. -/
  | sdk (name : String)
deriving DecidableEq, BEq, Inhabited, Repr

namespace Dependency

/-- The kinds of nodes in their order. -/
def rank : Dependency → Nat
  -- The numbers only serve the order below.
  | target _ _ => 0
  | foreignOutput _ _ _ => 1
  | framework _ _ => 2
  | library _ _ => 3
  | package _ => 4
  | sdk _ => 5

/-- The name a node goes by, for the kinds that have one. -/
def label : Dependency → String
  -- Where a kind has no name, the empty one does not decide anything.
  | target name _ | foreignOutput name _ _ | package name | sdk name => name
  | framework _ _ | library _ _ => ""

/-- The path of a node, for the kinds that have one. -/
def place : Dependency → Path
  -- Where a kind has no path, the empty one does not decide anything.
  | target _ path | foreignOutput _ path _ | framework path _ | library path _ => path
  | package _ | sdk _ => ⟨""⟩

/-- How a node is linked, for the kinds where that is said. -/
def linking : Dependency → Linking
  -- Where nothing is said about linking, static linking does not decide anything.
  | foreignOutput _ _ linking | framework _ linking | library _ linking => linking
  | target _ _ | package _ | sdk _ => .static

/-- Nodes come in the order of their kinds, names, paths and ways of linking. -/
instance : Ord Dependency where
  compare :=
    compareLex (compareOn rank) <| compareLex (compareOn label) <|
      compareLex (compareOn place) (compareOn linking)

instance : Std.TransOrd Dependency :=
  inferInstanceAs (Std.TransCmp <|
    compareLex (compareOn rank) <| compareLex (compareOn label) <|
      compareLex (compareOn place) (compareOn linking))

/-- The target that a node stands for, if it stands for one. -/
def targetId? : Dependency → Option TargetId
  -- The output of a target is not the target itself.
  | target name path => some ⟨path, name⟩
  | _ => none

/-- Whether a node stands for the target `id`. -/
def isTarget (id : TargetId) : Dependency → Bool
  -- The path is compared by its steps, so it may be spelled in another way.
  | target name path => path == id.path && name == id.name
  | _ => false

/-- Whether a node is the artefact of the target `id`, however it is linked. -/
def isOutputOf (id : TargetId) : Dependency → Bool
  -- The way of linking is left out, so both ways count.
  | foreignOutput name path _ => path == id.path && name == id.name
  | _ => false

end Dependency

/-- The node that stands for a target. -/
def TargetId.toDependency (id : TargetId) : Dependency :=
  -- The node carries the path in the spelling of the identity.
  .target id.name id.path

end BuildGraph
