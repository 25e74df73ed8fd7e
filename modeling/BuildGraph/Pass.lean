import BuildGraph.Ledger
import BuildGraph.PassError
import BuildGraph.Workspace

/-! Passes take a workspace and a ledger to an outcome, and tell which places they asked about. Work
to be done outside of the workspace is asked for, and never done here. -/

namespace BuildGraph

/-- Something to be done once a run is over. -/
inductive SideEffect where
  -- The arguments are separate words, so nothing has to be taken apart again.
  /-- A program is run; it comes first, and its arguments follow. -/
  | command (arguments : List String)
deriving DecidableEq, BEq, Inhabited, Repr

/-- What comes out of a pass, or of a whole run. -/
structure Outcome where
  -- A pass gives its whole successor state, so nothing is shared between passes but this.
  workspace : Workspace := {}
  sideEffects : List SideEffect := []
  ledger : Ledger := {}
deriving DecidableEq, BEq, Inhabited, Repr

/-- A result, or the reason for none, and the places that were asked about on the way. -/
structure Attempt (α : Type) where
  -- The questions are part of the result, so that their order can be spoken about.
  asked : List Path := []
  result : Except PassError α

namespace Attempt

variable {α β : Type}

/-- A result that asks about nothing. -/
def ofExcept (result : Except PassError α) : Attempt α :=
  -- Nothing that is decided this way depends on files.
  { result }

/-- What comes after a result asks its questions later; what comes after an error is not done. -/
def andThen (first : Attempt α) (next : α → Attempt β) : Attempt β :=
  -- The questions of the first part are kept even where the second is never begun.
  match first.result with
  | .ok a => ⟨first.asked ++ (next a).asked, (next a).result⟩
  | .error e => ⟨first.asked, .error e⟩

instance : Monad Attempt where
  pure a := ofExcept (.ok a)
  bind := andThen

end Attempt

/-- A way to find out whether something is at a place, or why that cannot be told. -/
abbrev Probe :=
  -- It is a function, so one place gets one answer however often it is asked.
  Path → Except String Bool

/-- Asks whether the artefact at a place is there. -/
def Probe.ask (probe : Probe) (path : Path) : Attempt Bool :=
  -- The question is noted whatever the answer is.
  ⟨[path], (probe path).mapError (.artifactProbe path)⟩

/-- One step of a run. -/
structure Pass where
  -- A pass is free in what it does; the stage is what it says about itself.
  name : String
  stage : Stage
  run : Workspace → Ledger → Attempt Outcome

end BuildGraph
