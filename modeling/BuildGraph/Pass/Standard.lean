import BuildGraph.Scheduling
import BuildGraph.Selection
import BuildGraph.Substitution
import BuildGraph.Wiring

/-! The passes that a run is made of. -/

namespace BuildGraph

/-- A pass that everyone can use, with what it needs to know. -/
inductive StandardPass where
  -- Each of the four belongs to a stage of its own.
  | wiring
  | focus (selection : Selection)
  | caching (artifacts : ArtifactTable)
  | scheduling (probe : Probe)

namespace StandardPass

/-- The name of a pass. -/
def name : StandardPass → String
  -- The names are those that errors and logs show.
  | wiring => "foreign-build"
  | focus _ => "focus-targets"
  | caching _ => "cached-artifacts"
  | scheduling _ => "foreign-build-side-effects"

/-- The stage of a pass. -/
def stage : StandardPass → Stage
  -- In this order the four stand in every pipeline that settings give.
  | wiring => .wiring
  | focus _ => .selection
  | caching _ => .caching
  | scheduling _ => .sideEffects

/-- What a pass makes of a workspace and a ledger. -/
def run (pass : StandardPass) (w : Workspace) (l : Ledger) : Attempt Outcome :=
  -- The first three ask nothing, and the last one changes nothing.
  match pass with
  | wiring => return ⟨w.wired, [], l⟩
  | focus selection => .ofExcept ((selection.focus w l).map fun (w, l) => ⟨w, [], l⟩)
  | caching artifacts => .ofExcept ((w.substitute artifacts l).map fun (w, l) => ⟨w, [], l⟩)
  | scheduling probe => return ⟨w, ← w.schedule l probe, l⟩

/-- The pass as one among any others. -/
def toPass (pass : StandardPass) : Pass :=
  -- From here on a standard pass is treated like any other.
  ⟨pass.name, pass.stage, pass.run⟩

end StandardPass

end BuildGraph
