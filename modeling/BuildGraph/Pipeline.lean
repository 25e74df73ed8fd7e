import BuildGraph.Pass
import BuildGraph.Text

/-! Pipelines run passes one after another, in an order that their stages allow. -/

namespace BuildGraph

/-- The first pass that stands behind one of a later stage. -/
def misplaced? : List Pass → Option PassError
  -- Comparing neighbours is enough, as the order of stages is transitive.
  | first :: second :: rest =>
    if second.stage.rank < first.stage.rank then
      some (.stageOutOfOrder second.name second.stage first.stage)
    else misplaced? (second :: rest)
  | _ => none

/-- Passes none of which is misplaced. -/
structure Pipeline where
  -- A list with a misplaced pass cannot be made into a pipeline.
  passes : List Pass
  accepted : misplaced? passes = none

namespace Pipeline

/-- The pipeline of a list of passes, unless one of them is misplaced. -/
def assemble (passes : List Pass) : Except PassError Pipeline :=
  -- The finding is kept as the proof that goes with the pipeline.
  match found : misplaced? passes with
  | none => .ok ⟨passes, found⟩
  | some e => .error e

/-- The names of the passes in the order in which they run. -/
def names (p : Pipeline) : List String :=
  -- The order is that of the list, which is that of the run.
  p.passes.map Pass.name

/-- The names of the passes as one text. -/
def describe (p : Pipeline) : String :=
  -- Each name is quoted, so a name with a comma stays one name.
  "[" ++ ", ".intercalate (p.names.map Text.shown) ++ "]"

/-- Passes run one after another; the first error ends the run, and side effects add up. -/
def runAll (w : Workspace) (l : Ledger) : List Pass → Attempt Outcome
  -- What a pass hands on is all that the next one sees.
  | [] => return ⟨w, [], l⟩
  | pass :: rest => do
    let first ← pass.run w l
    let last ← runAll first.workspace first.ledger rest
    return { last with sideEffects := first.sideEffects ++ last.sideEffects }

/-- The run of a pipeline on a workspace and a ledger. -/
def run (p : Pipeline) (w : Workspace) (l : Ledger := {}) : Attempt Outcome :=
  -- Without another ledger a run begins with an empty one.
  runAll w l p.passes

end Pipeline

end BuildGraph
