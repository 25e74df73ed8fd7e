import BuildGraph.Program

/-! The program itself: it looks at files, lets the library decide, and publishes the outcome. -/

namespace BuildGraph.Main

/-- What went wrong with a file. -/
def fileError (e : IO.Error) : FileError :=
  -- Some calls tell the number of an error, and others what is to be added to it for zero.
  let isCode (code : UInt32) (number : UInt32) : Bool := code = number ∨ code + number = 0
  match e with
  | .noFileOrDirectory _ _ _ => .notFound
  | .inappropriateType _ code _ =>
    if isCode code 21 then .isDirectory else if isCode code 20 then .notDirectory
    else .other (toString e)
  | .permissionDenied _ _ _ => .denied
  | .resourceExhausted _ code _ => if isCode code 28 then .noSpace else .other (toString e)
  | .hardwareFault _ _ => .inputOutput
  | .userError _ => .notText
  | _ => .other (toString e)

/-- The words for what went wrong with a file. -/
def cause (e : IO.Error) : String :=
  -- Only the kind of an error is kept, so the words are the same in all places.
  (fileError e).message

/-- The text of a file, or the words for why it cannot be had. -/
def readText (path : Path) : IO (Except String String) := do
  -- The whole file is read at once, or not at all.
  try return .ok (← IO.FS.readFile path.text)
  catch e => return .error (cause e)

/-- Whether something is at a path, or the words for why that cannot be told. -/
def isThere (path : Path) : IO (Except String Bool) := do
  try
    discard <| IO.FS.realPath path.text
    return .ok true
  catch _ =>
    -- Only an attempt to open what cannot be resolved tells what is in the way.
    try
      discard <| IO.FS.Handle.mk path.text .read
      return .ok true
    catch e =>
      return if fileError e = .notFound then .ok false else .error (cause e)

/-- What there is to be known of the files that a run asks about. -/
def surroundings (o : Options) : IO Surroundings := do
  let paths := o.config.toList ++ [o.graph]
  let texts ← paths.mapM fun path => return (path.text, ← readText path)
  let read (path : Path) := (texts.lookup path.text).getD (.error "not read")
  -- A run that finds everything in place asks about every place that any run asks about.
  let places := match o.attempt ⟨read, fun _ => .ok true⟩ with
    | .ok attempt => attempt.asked
    | .error _ => []
  let found ← places.mapM fun path => return (path.text, ← isThere path)
  return ⟨read, fun path => (found.lookup path.text).getD (.error "not asked")⟩

/-- What comes of one step of publishing. -/
def attempt (step : IO Unit) (error : String → RunError) : IO (Except RunError Unit) := do
  -- Whatever goes wrong is told as the error of this step.
  try return .ok (← step)
  catch e => return .error (error (cause e))

/-- Publishes the outcome of a run. -/
def publish (o : Options) (outcome : Outcome) : IO (Except RunError Unit) := do
  -- The text is complete before the first byte is written.
  let text := outcome.toJson.pretty
  if o.toStandardOutput then
    let out ← IO.getStdout
    let printed ← attempt (do out.putStr text; out.putStr "\n") .printing
    if printed matches .error _ then return printed
    attempt out.flush .flushing
  else attempt (IO.FS.writeFile o.output.text text) (.writing o.output)

/-- A run among the files that are really there. -/
def run (o : Options) : IO UInt32 := do
  -- The words of an error go to the side, and standard output stays what it is.
  let result ← match o.outcome (← surroundings o) with
    | .ok outcome => publish o outcome
    | .error e => pure (.error e)
  match result with
  | .ok _ => return 0
  | .error e =>
    IO.eprintln e.message
    return 1

end BuildGraph.Main

open BuildGraph in
/-- The program with the words of its command line. -/
def main (words : List String) : IO UInt32 := do
  -- Nothing is read before the words of the command line have been understood.
  match CommandLine.parse words with
  | .ok options => Main.run options
  | .error .displayHelp =>
    IO.print CommandLine.helpText
    return 0
  | .error .displayVersion =>
    IO.print CommandLine.versionText
    return 0
  | .error stop =>
    IO.eprintln ("error: " ++ stop.name)
    return 2
