import BuildGraph.CommandLine
import BuildGraph.FileStore
import BuildGraph.Pass.Json
import BuildGraph.Settings

/-! A run reads its settings and its workspace, and publishes all of its outcome or nothing. -/

namespace BuildGraph

open Json

/-- Why a run publishes nothing. -/
inductive RunError where
  -- The order is that in which a run can meet them.
  | readingConfig (path : Path) (cause : String)
  | parsingConfig (path : Path) (e : Json.Error)
  | readingGraph (path : Path) (cause : String)
  | parsingGraph (path : Path) (e : Json.Error)
  | mapping (e : PassError)
  /-- Standard output does not take the outcome, or the line feed behind it. -/
  | printing (cause : String)
  /-- Standard output does not let out what it has taken. -/
  | flushing (cause : String)
  | writing (path : Path) (cause : String)
deriving DecidableEq, Inhabited, Repr

/-- The words for an error, from what was being done to what went wrong. -/
def RunError.message : RunError → String
  -- The context comes first, and the cause behind it.
  | readingConfig path cause =>
    "loading pipeline config: failed to read config " ++ path.text ++ ": " ++ cause
  | parsingConfig path e =>
    "loading pipeline config: failed to parse config " ++ path.text ++ ": " ++ e.message
  | readingGraph path cause => "reading graph at " ++ path.text ++ ": " ++ cause
  | parsingGraph path e => "parsing graph at " ++ path.text ++ ": " ++ e.message
  | mapping e => "mapping graph\n" ++ e.report
  | printing cause => "writing result to stdout: " ++ cause
  | flushing cause => "flushing stdout: " ++ cause
  | writing path cause => "writing result to " ++ path.text ++ ": " ++ cause

/-- What a run can find out about the files around it. -/
structure Surroundings where
  -- This is all that a run depends on, besides the words it is given.
  /-- The text of a file, or the words for why it cannot be had. -/
  read : Path → Except String String
  probe : Probe

/-- What a store lets a run find out. -/
def FileStore.surroundings (s : FileStore) : Surroundings :=
  -- Errors of the store become words here, and the run does not tell them apart.
  ⟨fun p => (s.read p).mapError FileError.message,
    fun p => (s.isThere p).mapError FileError.message⟩

namespace Options

/-- The settings of a run: those of its configuration, with the wishes of the command line. -/
def settings (o : Options) (s : Surroundings) : Except RunError Settings := do
  -- Without a configuration the command line is laid over nothing.
  let base ← match o.config with
    | none => pure {}
    | some path => do
      let text ← (s.read path).mapError (.readingConfig path)
      (Reader.ofText Settings.reader text).mapError (.parsingConfig path)
  return base.mergedWith o.testPlan o.included o.excluded

/-- The workspace that a run is about. -/
def workspace (o : Options) (s : Surroundings) : Except RunError Workspace := do
  -- The whole text is read and understood before any pass begins.
  let text ← (s.read o.graph).mapError (.readingGraph o.graph)
  (Reader.ofText Workspace.reader text).mapError (.parsingGraph o.graph)

/-- What comes of a run, and the places that it asks about. -/
def attempt (o : Options) (s : Surroundings) : Except RunError (Attempt Outcome) := do
  -- Nothing is written on the way to an outcome.
  let settings ← o.settings s
  let workspace ← o.workspace s
  return (settings.pipeline s.probe).run workspace

/-- What comes of a run. -/
def outcome (o : Options) (s : Surroundings) : Except RunError Outcome := do
  -- The questions are forgotten here, and only the result is kept.
  (← o.attempt s).result.mapError .mapping

/-- The outcome goes to standard output and not to a file. -/
def toStandardOutput (o : Options) : Bool :=
  -- The text decides and not the path: a dash behind a dot is a file.
  o.output.text = "-"

end Options

/-- Standard output, by what goes wrong there. A text is taken in as a whole or not at all, and what
has been taken in goes out all at once, or nothing of it does. -/
structure StandardOutput where
  -- The default takes and lets out everything.
  /-- Why a text is not taken in behind what has been taken in before. -/
  refusal? : String → String → Option String := fun _ _ => none
  /-- Why what has been taken in does not go out. -/
  blockage? : String → Option String := fun _ => none
deriving Inhabited

namespace StandardOutput

/-- What has been taken in once a text has been added to it. -/
def write (out : StandardOutput) (held text : String) : Except String String :=
  -- What has been held back before is shown to the refusal, since it may be what fills the room.
  match out.refusal? held text with
  | some cause => .error cause
  | none => .ok (held ++ text)

/-- What goes out of what has been taken in. -/
def flush (out : StandardOutput) (held : String) : Except String String :=
  -- Nothing is let out in part.
  match out.blockage? held with
  | some cause => .error cause
  | none => .ok held

/-- What goes out where a text is written with a line feed behind it. -/
def printLine (out : StandardOutput) (text : String) : Except RunError String := do
  -- The text and the line feed are written apart and go out together.
  let held ← (out.write "" text).mapError .printing
  let held ← (out.write held "\n").mapError .printing
  (out.flush held).mapError .flushing

/-- What goes out of a text where it does not matter whether it does. -/
def tell (out : StandardOutput) (text : String) : String :=
  -- Words for the user are not worth failing for.
  match out.write "" text >>= out.flush with
  | .ok shown => shown
  | .error _ => ""

end StandardOutput

/-- What is left after a run. -/
structure RunReport where
  -- The store and standard output are told in full, so what a run leaves alone can be stated.
  result : Except RunError Unit
  stdout : String
  store : FileStore

/-- A run among the files of a store. Nothing is given out before there is an outcome. -/
def Options.run (o : Options) (store : FileStore) (out : StandardOutput := {}) : RunReport :=
  -- In every case with an error the store is the one before, and nothing is shown.
  match o.outcome store.surroundings with
  | .error e => ⟨.error e, "", store⟩
  | .ok outcome =>
    let text := outcome.toJson.pretty
    if o.toStandardOutput then match out.printLine text with
      | .ok shown => ⟨.ok (), shown, store⟩
      | .error e => ⟨.error e, "", store⟩
    else match store.write o.output text with
      | .ok store => ⟨.ok (), "", store⟩
      | .error e => ⟨.error (.writing o.output e.message), "", store⟩

/-- What is seen of the program once it has ended. -/
structure Exit where
  -- This is all that can be seen from outside.
  code : Nat
  stdout : String
  /-- Nothing was said on the side. -/
  quiet : Bool
  store : FileStore

/-- The program with the words of a command line, among the files of a store. -/
def execute (words : List String) (store : FileStore) (out : StandardOutput := {}) : Exit :=
  -- Help and version come before anything is read; a command line that is not understood ends with
  -- a code of its own.
  match CommandLine.parse words with
  | .error .displayHelp => ⟨0, out.tell CommandLine.helpText, true, store⟩
  | .error .displayVersion => ⟨0, out.tell CommandLine.versionText, true, store⟩
  | .error _ => ⟨2, "", false, store⟩
  | .ok options =>
    let report := options.run store out
    match report.result with
    | .ok _ => ⟨0, report.stdout, !options.verbose, report.store⟩
    | .error _ => ⟨1, report.stdout, false, report.store⟩

end BuildGraph
