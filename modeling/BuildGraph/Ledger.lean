import BuildGraph.Dependency
import BuildGraph.SortedMap
import BuildGraph.SortedSet

/-! What passes tell later passes: which targets were asked for, and which were replaced. -/

namespace BuildGraph

/-- The shape of an artefact that is there already. -/
inductive Shape where
  -- The shape decides which kind of node consumers are given.
  | framework
  | library
deriving DecidableEq, Inhabited, Repr

/-- An artefact that can stand in for a target. -/
structure Prebuilt where
  path : Path
  shape : Shape
  linking : Linking
deriving DecidableEq, BEq, Inhabited, Repr

/-- The node that consumers depend on once the artefact stands in for their target. -/
def Prebuilt.dependency (a : Prebuilt) : Dependency :=
  -- No name of a target is in the node, so one artefact is one node for all its consumers.
  match a.shape with
  | .framework => .framework a.path a.linking
  | .library => .library a.path a.linking

/-- A target and what stands in for it. -/
structure Replacement where
  -- The whole identity is kept, though the ledger files by name.
  target : TargetId
  artifact : Prebuilt
deriving DecidableEq, BEq, Inhabited, Repr

/-- The notes of one run. -/
structure Ledger where
  -- A name can have several replacements, one for each identity that shares it.
  /-- The replacements, filed under the names of their targets. -/
  replacements : SortedMap String (List Replacement) := {}
  /-- The targets of an explicit selection. -/
  requested : SortedSet TargetId := {}
deriving DecidableEq, BEq, Inhabited, Repr

namespace Ledger

/-- The ledger with a replacement noted; an earlier one of the same target is dropped. -/
def recordReplacement (l : Ledger) (r : Replacement) : Ledger :=
  -- The new one goes to the end, also where it takes the place of another.
  { l with replacements := l.replacements.alter r.target.name fun held =>
      ((held.getD []).filter fun old => old.target != r.target) ++ [r] }

/-- What was noted to stand in for a target. -/
def replacementFor? (l : Ledger) (id : TargetId) : Option Replacement := do
  -- The name leads to the file, and the identity decides within it.
  (← l.replacements.get? id.name).find? fun r => r.target == id

/-- Whether something stands in for a target. -/
def isReplaced (l : Ledger) (id : TargetId) : Bool :=
  -- The ledger decides, whether the target is pruned or not.
  (l.replacementFor? id).isSome

/-- The ledger with the targets of an explicit selection, in the place of earlier ones. -/
def recordRequested (l : Ledger) (ids : List TargetId) : Ledger :=
  -- Requests do not add up: the latest selection is the one that counts.
  { l with requested := .collect ids }

/-- Whether a target belongs to an explicit selection. -/
def isRequested (l : Ledger) (id : TargetId) : Bool :=
  -- Paths are compared by their steps, so another spelling counts as well.
  l.requested.contains id

end Ledger

end BuildGraph
