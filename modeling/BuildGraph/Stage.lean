/-! The stages of a run, in the order in which they may come. -/

namespace BuildGraph

/-- What a pass is there for. -/
inductive Stage where
  /-- To reshape the workspace for everyone, pruned or not. -/
  | wiring
  /-- To decide what is to be built. -/
  | selection
  /-- To put artefacts that are there already in the place of targets. -/
  | caching
  /-- To ask for the work that is left. -/
  | sideEffects
deriving DecidableEq, Inhabited, Repr

namespace Stage

/-- The place of a stage in a run. -/
def rank : Stage → Nat
  -- The numbers only serve the order below; every stage comes after those with smaller ones.
  | wiring => 0
  | selection => 1
  | caching => 2
  | sideEffects => 3

instance : Ord Stage where
  compare := compareOn rank

instance : Std.TransOrd Stage :=
  inferInstanceAs (Std.TransCmp (compareOn rank))

/-- The words for a stage in messages. -/
def label : Stage → String
  -- These are the words that the error about misplaced passes uses.
  | wiring => "wiring"
  | selection => "selection"
  | caching => "caching"
  | sideEffects => "side-effects"

instance : ToString Stage where
  toString := label

end Stage

end BuildGraph
