import BuildGraph.Dependency
import BuildGraph.Stage

/-! The reasons for which a run comes to nothing, what is said of them, and how that is set out for
a reader. -/

namespace BuildGraph

/-- Why a run comes to nothing. -/
inductive PassError where
  /-- Names that were to be included belong to no target that can be. -/
  | targetsNotFound (names : List String)
  /-- No project has the test plan that was asked for. -/
  | testPlanNotFound (name : String)
  /-- Targets depend on each other in a loop, whose first target is repeated at its end. -/
  | cyclicDependency (loop : List TargetId)
  /-- It could not be found out whether an artefact is there. -/
  | artifactProbe (path : Path) (cause : String)
  /-- A pass stands behind one of a later stage. -/
  | stageOutOfOrder (pass : String) (stage previous : Stage)
deriving DecidableEq, Inhabited, Repr

namespace PassError

/-- The words for an error. -/
def message : PassError → String
  -- These words stand alone, without the code and the help.
  | targetsNotFound names => "targets not found: " ++ ", ".intercalate names
  | testPlanNotFound name => "test plan '" ++ name ++ "' not found"
  | cyclicDependency loop =>
    "cyclic dependency detected: " ++ " -> ".intercalate (loop.map toString)
  | artifactProbe path _ => "failed to check foreign build output " ++ path.text
  | stageOutOfOrder pass stage previous =>
    "mapper '" ++ pass ++ "' (" ++ stage.label ++ ") cannot run after a " ++ previous.label
      ++ " mapper"

/-- The kind of an error, in one word. -/
def kind : PassError → String
  -- One word for each constructor, without its data.
  | targetsNotFound _ => "targets_not_found"
  | testPlanNotFound _ => "test_plan_not_found"
  | cyclicDependency _ => "cyclic_dependency"
  | artifactProbe _ _ => "artifact_probe"
  | stageOutOfOrder _ _ _ => "stage_out_of_order"

/-- The code by which an error can be looked up. -/
def code (e : PassError) : String :=
  -- The prefix is the same for all errors.
  "graphmill::mapper::" ++ e.kind

/-- What may help against an error. -/
def help? : PassError → Option String
  -- Where nothing can be done in the workspace itself, no help is offered.
  | targetsNotFound _ =>
    some "check the target names, and that they are not excluded or external"
  | cyclicDependency _ => some "break the cycle by removing one of the listed dependencies"
  | stageOutOfOrder _ _ _ => some "order mappers as wiring, selection, caching, then side effects"
  | testPlanNotFound _ | artifactProbe _ _ => none

/-- The words for what lies behind an error. -/
def cause? : PassError → Option String
  -- Only a probe has something behind it, which is the system's own word for it.
  | artifactProbe _ cause => some cause
  | _ => none

/-- The lines of a text, each without the blanks at its end. -/
def reportLines (text : String) : List String :=
  -- Blanks at the end of a line would not show.
  (text.toList.splitOn '\n').map fun line =>
    String.ofList (line.reverse.dropWhile (· = ' ')).reverse

/-- A text behind `lead`, and its further lines behind `indent`. -/
def paragraph (lead indent text : String) : String :=
  -- Further lines stand below the text of the first, not below its lead.
  lead ++ ("\n" ++ indent).intercalate (reportLines text) ++ "\n"

/-- The code of an error, its words, what lies behind it, and what may help. -/
def report (e : PassError) : String :=
  -- The parts that an error does not have are left out, with their leads.
  e.code ++ "\n\n" ++ paragraph "  × " "  │ " e.message
    ++ (e.cause?.elim "" (paragraph "  ╰─▶ " "      "))
    ++ (e.help?.elim "" (paragraph "  help: " "        "))

end PassError

end BuildGraph
