import BuildGraph.Path

/-! Command lines are read word by word into the options of a run. -/

namespace BuildGraph

/-- What a run is asked to do. -/
structure Options where
  -- The defaults are those of an empty command line.
  graph : Path := ⟨"graph.json"⟩
  config : Option Path := none
  testPlan : Option String := none
  included : List String := []
  excluded : List String := []
  output : Path := ⟨"-"⟩
  verbose : Bool := false
deriving DecidableEq, Inhabited, Repr

namespace CommandLine

/-- Why a command line does not lead to a run. -/
inductive Stop where
  -- The last two are no errors: the program ends well after them.
  | unknownArgument
  | invalidValue
  | argumentConflict
  | tooManyValues
  | displayHelp
  | displayVersion
deriving DecidableEq, Inhabited, Repr

/-- The name of a reason. -/
def Stop.name : Stop → String
  -- The names are what a user of the program is told.
  | unknownArgument => "UnknownArgument"
  | invalidValue => "InvalidValue"
  | argumentConflict => "ArgumentConflict"
  | tooManyValues => "TooManyValues"
  | displayHelp => "DisplayHelp"
  | displayVersion => "DisplayVersion"

/-- A switch that takes a value. -/
inductive Setting where
  | graph
  | config
  | testPlan
  | included
  | excluded
  | output
deriving DecidableEq, Inhabited, Repr

/-- A switch that can be given more than once. -/
def Setting.isRepeatable : Setting → Bool
  -- Names add up, and everything else would contradict itself.
  | included | excluded => true
  | graph | config | testPlan | output => false

/-- A switch that takes no value. -/
inductive Flag where
  | verbose
  | help
  | version
deriving DecidableEq, Inhabited, Repr

/-- What a word that begins with a dash can name. -/
inductive Switch where
  | setting (s : Setting)
  | flag (f : Flag)
deriving DecidableEq, Inhabited, Repr

namespace Switch

/-- The switch of a long name. -/
def ofName? : String → Option Switch
  -- Names are known in full only, and no beginning of one is.
  | "graph" => some (.setting .graph)
  | "config" => some (.setting .config)
  | "test-plan" => some (.setting .testPlan)
  | "include" => some (.setting .included)
  | "exclude" => some (.setting .excluded)
  | "output" => some (.setting .output)
  | "verbose" => some (.flag .verbose)
  | "help" => some (.flag .help)
  | "version" => some (.flag .version)
  | _ => none

/-- The switch of a letter. -/
def ofLetter? : Char → Option Switch
  -- The test plan has no letter.
  | 'g' => some (.setting .graph)
  | 'c' => some (.setting .config)
  | 'i' => some (.setting .included)
  | 'x' => some (.setting .excluded)
  | 'o' => some (.setting .output)
  | 'v' => some (.flag .verbose)
  | 'h' => some (.flag .help)
  | 'V' => some (.flag .version)
  | _ => none

end Switch

/-- What has been read of a command line. -/
structure Reading where
  -- A reading holds no errors: the first one ends it.
  /-- The values given, in order. -/
  given : List (Setting × String) := []
  verbose : Bool := false
  /-- The switch named last, and its value once that has been read. -/
  pending : Option (Setting × Option String) := none
  /-- Two dashes have been read, after which nothing is a switch. -/
  trailing : Bool := false
deriving DecidableEq, Inhabited, Repr

namespace Reading

/-- The reading with a value given to a switch. -/
def record (r : Reading) (s : Setting) (value : String) : Except Stop Reading :=
  -- A repeated setting is an error even where both values are the same.
  if !s.isRepeatable && r.given.any (·.1 = s) then .error .argumentConflict
  else .ok { r with given := r.given ++ [(s, value)] }

/-- The reading once it is clear that nothing more belongs to the switch named last. -/
def settle (r : Reading) : Except Stop Reading :=
  -- A value that was waited for and has not come is missing now.
  match r.pending with
  | none => .ok r
  | some (_, none) => .error .invalidValue
  | some (s, some value) => { r with pending := none }.record s value

/-- The reading after a switch whose value is attached to it, or is still to come. -/
def take (r : Reading) (s : Setting) (value : Option String) : Except Stop Reading := do
  -- A value that belongs to the setting before is given first.
  let r ← r.settle
  match value with
  | some value => r.record s value
  | none => .ok { r with pending := some (s, none) }

/-- The reading after a flag. -/
def raise (r : Reading) (f : Flag) : Except Stop Reading := do
  -- Help and version end the reading at once, and errors further on do not matter any more.
  let r ← r.settle
  match f with
  | .help => .error .displayHelp
  | .version => .error .displayVersion
  | .verbose => if r.verbose then .error .argumentConflict else .ok { r with verbose := true }

/-- The reading after a long name, perhaps with a value behind an equals sign. -/
def long (r : Reading) (word : List Char) : Except Stop Reading :=
  -- Only the first equals sign parts the name from the value.
  let (name, attached) := word.span (· ≠ '=')
  match Switch.ofName? (String.ofList name), attached with
  | none, _ => .error .unknownArgument
  | some (.setting s), [] => r.take s none
  | some (.setting s), _ :: value => r.take s (some (String.ofList value))
  | some (.flag f), [] => r.raise f
  | some (.flag _), _ :: _ => .error .tooManyValues

/-- The reading after letters behind one dash; what follows the letter of a setting is its value. -/
def short (r : Reading) : List Char → Except Stop Reading
  -- The equals sign between a letter and its value is optional.
  | [] => .ok r
  | letter :: rest =>
    match Switch.ofLetter? letter, rest with
    | none, _ => .error .unknownArgument
    | some (.flag f), _ => do (← r.raise f).short rest
    | some (.setting s), [] => r.take s none
    | some (.setting s), '=' :: value => r.take s (some (String.ofList value))
    | some (.setting s), value => r.take s (some (String.ofList value))

/-- The reading after a word that names no switch. -/
def value (r : Reading) (word : String) : Except Stop Reading :=
  -- Words that belong to no setting are not known to the program.
  match r.pending with
  | some (s, none) => .ok { r with pending := some (s, some word) }
  | _ => .error .unknownArgument

/-- The reading after one more word. -/
def step (r : Reading) (word : String) : Except Stop Reading :=
  -- A dash alone is no switch, so it can be a value.
  if r.trailing then .error .unknownArgument
  else match word.toList with
    | ['-', '-'] => .ok { r with trailing := true }
    | '-' :: '-' :: name => r.long name
    | '-' :: letter :: rest => r.short (letter :: rest)
    | _ => r.value word

/-- The values given to a switch. -/
def values (r : Reading) (s : Setting) : List String :=
  -- The order is that in which they were given.
  (r.given.filter (·.1 = s)).map Prod.snd

/-- The value given to a switch. -/
def value? (r : Reading) (s : Setting) : Option String :=
  -- For a setting that cannot be repeated, the first value is the only one.
  r.given.lookup s

/-- The options that have been read. -/
def options (r : Reading) : Options where
  -- The defaults stand here, for settings that were not given.
  graph := (r.value? .graph).elim ⟨"graph.json"⟩ Path.mk
  config := (r.value? .config).map Path.mk
  testPlan := r.value? .testPlan
  included := r.values .included
  excluded := r.values .excluded
  output := (r.value? .output).elim ⟨"-"⟩ Path.mk
  verbose := r.verbose

end Reading

/-- The options that the words of a command line give. -/
def parse (words : List String) : Except Stop Options := do
  -- The last setting may still be waiting when the words end.
  let r ← words.foldlM Reading.step {}
  return (← r.settle).options

/-- The name of the program and its version. -/
def versionText : String :=
  -- The line feed belongs to what is printed.
  "graphmill 0.1.0\n"

/-- What the program does, and the switches it knows. -/
def helpText : String :=
  "Dependency-graph mapper pipeline for project generation: focus, prune and foreign-build wiring.\n"
  ++ "\n"
  ++ "Usage: graphmill [OPTIONS]\n"
  ++ "\n"
  ++ "Options:\n"
  ++ "  -g, --graph <FILE>      JSON graph to map [default: graph.json]\n"
  ++ "  -c, --config <FILE>     JSON pipeline configuration. Command-line options layer on top\n"
  ++ "      --test-plan <NAME>  Focus on the targets of this test plan\n"
  ++ "  -i, --include <TARGET>  Focus on this target. May be repeated\n"
  ++ "  -x, --exclude <TARGET>  Never focus on this target. May be repeated\n"
  ++ "  -o, --output <FILE>     Where to write the mapped graph and side effects; `-` is stdout [default: -]\n"
  ++ "  -v, --verbose           Enable verbose diagnostic logging\n"
  ++ "  -h, --help              Print help\n"
  ++ "  -V, --version           Print version\n"

end CommandLine

end BuildGraph
