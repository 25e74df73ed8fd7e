import BuildGraph.Program
import BuildGraph.Proofs.CommandLine
import BuildGraph.Proofs.EndToEnd
import BuildGraph.Proofs.FileStore
import BuildGraph.Proofs.Matching
import BuildGraph.Proofs.RoundTrip

/-! The program publishes its whole outcome in one place, or says why it does not and leaves
everything as it was. -/

namespace BuildGraph

open Json

namespace Options

variable {o : Options} {store : FileStore} {out : StandardOutput} {base settings : Settings}
  {w : Workspace}

/-- The settings that the files give: those of the configuration, if one is named. -/
inductive Configured (o : Options) (store : FileStore) : Settings → Prop
  -- A configuration that is named must be there and make sense.
  | unnamed (absent : o.config = none) : Configured o store {}
  | named {path : Path} {text : String} {base : Settings} (named : o.config = some path)
      (read : store.read path = .ok text) (parsed : Reader.ofText Settings.reader text = .ok base) :
      Configured o store base

/-- What the command line wishes is laid over settings: its test plan takes the place of another,
and its names come on top of those that are there. -/
structure Layers (o : Options) (base settings : Settings) : Prop where
  -- Membership is what counts: names are sets, and their order and repetitions do not matter.
  testPlan : settings.testPlan = o.testPlan.or base.testPlan
  included : ∀ name, name ∈ settings.included.toList ↔
    name ∈ base.included.toList ∨ name ∈ o.included
  excluded : ∀ name, name ∈ settings.excluded.toList ↔
    name ∈ base.excluded.toList ∨ name ∈ o.excluded
  artifacts : settings.artifacts = base.artifacts

/-- The graph file holds a workspace. -/
def Concerns (o : Options) (store : FileStore) (w : Workspace) : Prop :=
  -- The file is read as a whole, and nothing else is read with it.
  ∃ text, store.read o.graph = .ok text ∧ Reader.ofText Workspace.reader text = .ok w

/-- What the pipeline of the settings makes of the workspace, before anything is written. -/
def Makes (o : Options) (store : FileStore) (result : Except PassError Outcome) : Prop :=
  -- The parts are named one by one, so the function that puts them together is not used.
  ∃ base settings w, o.Configured store base ∧ o.Layers base settings ∧ o.Concerns store w ∧
    ((settings.pipeline store.surroundings.probe).run w).result = result

/-- What keeps a run from publishing: what it reads cannot be had or makes no sense, the pipeline
fails, or the place that the outcome is meant for does not take it. -/
inductive Refuses (o : Options) (store : FileStore) (out : StandardOutput) : RunError → Prop
  -- Each rule holds in a run that has come so far: all that comes before has gone well.
  | readingConfig {path : Path} {e : FileError} (named : o.config = some path)
      (unread : store.read path = .error e) : Refuses o store out (.readingConfig path e.message)
  | parsingConfig {path : Path} {text : String} {e : Json.Error} (named : o.config = some path)
      (read : store.read path = .ok text)
      (malformed : Reader.ofText Settings.reader text = .error e) :
      Refuses o store out (.parsingConfig path e)
  | readingGraph {base : Settings} {e : FileError} (configured : o.Configured store base)
      (unread : store.read o.graph = .error e) :
      Refuses o store out (.readingGraph o.graph e.message)
  | parsingGraph {base : Settings} {text : String} {e : Json.Error}
      (configured : o.Configured store base) (read : store.read o.graph = .ok text)
      (malformed : Reader.ofText Workspace.reader text = .error e) :
      Refuses o store out (.parsingGraph o.graph e)
  | mapping {e : PassError} (failed : o.Makes store (.error e)) : Refuses o store out (.mapping e)
  | printingText {outcome : Outcome} {cause : String} (made : o.Makes store (.ok outcome))
      (asked : o.output.text = "-")
      (untaken : out.refusal? "" outcome.toJson.pretty = some cause) :
      Refuses o store out (.printing cause)
  | printingLine {outcome : Outcome} {cause : String} (made : o.Makes store (.ok outcome))
      (asked : o.output.text = "-") (taken : out.refusal? "" outcome.toJson.pretty = none)
      (untaken : out.refusal? outcome.toJson.pretty "\n" = some cause) :
      Refuses o store out (.printing cause)
  | flushing {outcome : Outcome} {cause : String} (made : o.Makes store (.ok outcome))
      (asked : o.output.text = "-") (taken : out.refusal? "" outcome.toJson.pretty = none)
      (ended : out.refusal? outcome.toJson.pretty "\n" = none)
      (stuck : out.blockage? (outcome.toJson.pretty ++ "\n") = some cause) :
      Refuses o store out (.flushing cause)
  | writing {outcome : Outcome} {e : FileError} (made : o.Makes store (.ok outcome))
      (named : o.output.text ≠ "-")
      (unwritten : store.write o.output outcome.toJson.pretty = .error e) :
      Refuses o store out (.writing o.output e.message)

/-- A text goes to the one place that the options name, and nowhere else: to standard output, to a
file that is read by whatever path leads to it, or to something that takes a text and holds
nothing. -/
inductive Delivers (o : Options) (store : FileStore) (text : String) : RunReport → Prop
  | standardOutput (asked : o.output.text = "-") :
      Delivers o store text ⟨.ok (), text ++ "\n", store⟩
  | file {place : Place} {store' : FileStore} (named : o.output.text ≠ "-")
      (leads : store.destination o.output = .ok place) (reached : store.reach o.output = .ok place)
      (rewritten : FileStore.Rewritten store store' place text)
      -- A file that may be written need not be one that may be read.
      (there : ∀ p, store.reach p = .ok place → store.faults .read place = none →
        store'.read p = .ok text)
      (elsewhere : ∀ p other, store.reach p ≠ .ok place →
        (store'.read p = .ok other ↔ store.read p = .ok other)) :
      Delivers o store text ⟨.ok (), "", store'⟩
  | sink {place : Place} (named : o.output.text ≠ "-")
      (leads : store.destination o.output = .ok place) (swallows : store.node? place = some .sink) :
      Delivers o store text ⟨.ok (), "", store⟩

/-- The settings of a run are those of the files with the wishes of the command line. -/
theorem layers_iff :
    o.Layers base settings ↔ settings = base.mergedWith o.testPlan o.included o.excluded := by
  constructor
  · rintro ⟨testPlan, included, excluded, artifacts⟩
    cases settings
    simp only at testPlan included excluded artifacts
    -- Names stand in order, so that a set is given by what is in it.
    have names : ∀ {s t : SortedSet String} {l : List String},
        (∀ name, name ∈ s.toList ↔ name ∈ t.toList ∨ name ∈ l) → s = t.insertAll l := by
      intro s t l same
      exact SortedSet.ext_mem fun name => (same name).trans SortedSet.mem_insertAll.symm
    rw [testPlan, artifacts, names included, names excluded, Settings.mergedWith]
    cases o.testPlan <;> rfl
  · rintro rfl
    refine ⟨?_, fun _ => SortedSet.mem_insertAll, fun _ => SortedSet.mem_insertAll, rfl⟩
    cases o.testPlan <;> rfl

/-- The settings of the files are what a run has before the wishes of the command line. -/
theorem settings_of_configured (configured : o.Configured store base) :
    o.settings store.surroundings = .ok (base.mergedWith o.testPlan o.included o.excluded) := by
  -- Both ways to be configured give the base that the wishes are laid over.
  cases configured with
  | unnamed absent => rw [Options.settings, absent]; rfl
  | named named read parsed =>
    simp only [Options.settings, FileStore.surroundings, named, read, mapError_ok, ok_bind, parsed]
    rfl

/-- The workspace of the graph file is what a run is about. -/
theorem workspace_of_concerns (concerns : o.Concerns store w) :
    o.workspace store.surroundings = .ok w := by
  -- The file is read, and its text is parsed.
  obtain ⟨text, read, parsed⟩ := concerns
  simp only [Options.workspace, FileStore.surroundings, read, mapError_ok, ok_bind, parsed]

/-- A run gets as far as what its pipeline makes. -/
theorem outcome_of_makes {result : Except PassError Outcome} (made : o.Makes store result) :
    o.outcome store.surroundings = result.mapError .mapping := by
  -- Each step of the attempt has the result that is known of it.
  obtain ⟨base, settings, w, configured, layers, concerns, rfl⟩ := made
  cases layers_iff.mp layers
  simp only [Options.outcome, Options.attempt, settings_of_configured configured,
    workspace_of_concerns concerns]
  rfl

/-- An error before anything is made leaves everything as it was. -/
theorem run_of_outcome_error {e : RunError} (failed : o.outcome store.surroundings = .error e) :
    o.run store out = ⟨.error e, "", store⟩ := by
  -- Nothing is published without an outcome.
  rw [Options.run, failed]

/-- A run gets no further than its settings. -/
theorem outcome_of_settings_error {e : RunError}
    (failed : o.settings store.surroundings = .error e) :
    o.outcome store.surroundings = .error e := by
  -- The settings come first.
  simp only [Options.outcome, Options.attempt, failed, error_bind]

/-- A run gets no further than its workspace. -/
theorem outcome_of_workspace_error {e : RunError} (configured : o.Configured store base)
    (failed : o.workspace store.surroundings = .error e) :
    o.outcome store.surroundings = .error e := by
  -- The workspace comes next to the settings.
  simp only [Options.outcome, Options.attempt, settings_of_configured configured, failed, ok_bind,
    error_bind]

/-- A run publishes what its pipeline makes, in the place that the options name. -/
theorem run_of_makes {outcome : Outcome} (made : o.Makes store (.ok outcome)) :
    o.run store out =
      if o.toStandardOutput then match out.printLine outcome.toJson.pretty with
        | .ok shown => ⟨.ok (), shown, store⟩
        | .error e => ⟨.error e, "", store⟩
      else match store.write o.output outcome.toJson.pretty with
        | .ok store => ⟨.ok (), "", store⟩
        | .error e => ⟨.error (.writing o.output e.message), "", store⟩ := by
  -- All that is left to do is to publish.
  rw [Options.run, outcome_of_makes made]
  rfl

/-- A run that is refused leaves everything as it was. -/
theorem run_of_refuses {e : RunError} (refused : o.Refuses store out e) :
    o.run store out = ⟨.error e, "", store⟩ := by
  -- Each reason stops the run at a step of its own, and publishing is the last of them.
  cases refused with
  | readingConfig named unread =>
    refine run_of_outcome_error (outcome_of_settings_error ?_)
    simp only [Options.settings, FileStore.surroundings, named, unread, mapError_error, error_bind]
  | parsingConfig named read malformed =>
    refine run_of_outcome_error (outcome_of_settings_error ?_)
    simp only [Options.settings, FileStore.surroundings, named, read, mapError_ok, ok_bind,
      malformed, mapError_error, error_bind]
  | readingGraph configured unread =>
    refine run_of_outcome_error (outcome_of_workspace_error configured ?_)
    simp only [Options.workspace, FileStore.surroundings, unread, mapError_error, error_bind]
  | parsingGraph configured read malformed =>
    refine run_of_outcome_error (outcome_of_workspace_error configured ?_)
    simp only [Options.workspace, FileStore.surroundings, read, mapError_ok, ok_bind, malformed,
      mapError_error]
  | mapping failed => exact run_of_outcome_error (outcome_of_makes failed)
  | printingText made asked untaken =>
    rw [run_of_makes made]
    simp [toStandardOutput, asked, StandardOutput.printLine, StandardOutput.write, untaken]
  | printingLine made asked taken untaken =>
    rw [run_of_makes made]
    simp [toStandardOutput, asked, StandardOutput.printLine, StandardOutput.write, taken, untaken]
  | flushing made asked taken ended stuck =>
    rw [run_of_makes made]
    simp [toStandardOutput, asked, StandardOutput.printLine, StandardOutput.write, taken, ended,
      StandardOutput.flush, stuck]
  | writing made named unwritten =>
    rw [run_of_makes made]
    simp [toStandardOutput, named, unwritten]

/-- The files give settings, or the run is refused. -/
theorem configured_or_refuses (o : Options) (store : FileStore) (out : StandardOutput) :
    (∃ base, o.Configured store base) ∨ ∃ e, o.Refuses store out e := by
  -- Without a configuration there is nothing to read.
  cases named : o.config with
  | none => exact .inl ⟨{}, .unnamed named⟩
  | some path =>
    cases read : store.read path with
    | error e => exact .inr ⟨_, .readingConfig named read⟩
    | ok text =>
      cases parsed : Reader.ofText Settings.reader text with
      | error e => exact .inr ⟨_, .parsingConfig named read parsed⟩
      | ok base => exact .inl ⟨base, .named named read parsed⟩

/-- The graph file holds a workspace, or the run is refused. -/
theorem concerns_or_refuses (configured : o.Configured store base) :
    (∃ w, o.Concerns store w) ∨ ∃ e, o.Refuses store out e := by
  -- Reading can fail, and so can parsing what was read.
  cases read : store.read o.graph with
  | error e => exact .inr ⟨_, .readingGraph configured read⟩
  | ok text =>
    cases parsed : Reader.ofText Workspace.reader text with
    | error e => exact .inr ⟨_, .parsingGraph configured read parsed⟩
    | ok w => exact .inl ⟨w, text, read, parsed⟩

/-- The pipeline makes an outcome, or the run is refused. -/
theorem makes_or_refuses (o : Options) (store : FileStore) (out : StandardOutput) :
    (∃ outcome, o.Makes store (.ok outcome)) ∨ ∃ e, o.Refuses store out e := by
  rcases o.configured_or_refuses store out with ⟨base, configured⟩ | refused
  · rcases concerns_or_refuses configured with ⟨w, concerns⟩ | refused
    · -- What the pipeline makes is an outcome or an error.
      have makes : o.Makes store _ := ⟨base, _, w, configured, layers_iff.mpr rfl, concerns, rfl⟩
      generalize (Pipeline.run _ _).result = result at makes
      cases result with
      | error e => exact .inr ⟨_, .mapping makes⟩
      | ok outcome => exact .inl ⟨outcome, makes⟩
    · exact .inr refused
  · exact .inr refused

/-- Standard output takes what is made, or the run is refused. -/
theorem prints_or_refuses {outcome : Outcome} (made : o.Makes store (.ok outcome))
    (asked : o.output.text = "-") :
    o.run store out = ⟨.ok (), outcome.toJson.pretty ++ "\n", store⟩ ∨
      ∃ e, o.Refuses store out e := by
  -- Each of the three steps is taken or refused.
  cases taken : out.refusal? "" outcome.toJson.pretty with
  | some cause => exact .inr ⟨_, .printingText made asked taken⟩
  | none =>
    cases ended : out.refusal? outcome.toJson.pretty "\n" with
    | some cause => exact .inr ⟨_, .printingLine made asked taken ended⟩
    | none =>
      cases flowed : out.blockage? (outcome.toJson.pretty ++ "\n") with
      | some cause => exact .inr ⟨_, .flushing made asked taken ended flowed⟩
      | none =>
        left
        rw [run_of_makes made]
        simp [toStandardOutput, asked, StandardOutput.printLine, StandardOutput.write, taken,
          ended, StandardOutput.flush, flowed]

/-- What is made is delivered, unless it cannot be printed or written. -/
theorem delivers_or_refuses {outcome : Outcome} (made : o.Makes store (.ok outcome)) :
    o.Delivers store outcome.toJson.pretty (o.run store out) ∨ ∃ e, o.Refuses store out e := by
  by_cases asked : o.output.text = "-"
  · refine (prints_or_refuses made asked).imp_left fun printed => ?_
    rw [printed]
    exact .standardOutput asked
  · rw [run_of_makes made]
    simp only [toStandardOutput, asked, decide_false, Bool.false_eq_true, if_false]
    -- A path may lead nowhere.
    cases written : store.write o.output outcome.toJson.pretty with
    | error e => exact .inr ⟨_, .writing made asked written⟩
    | ok store' =>
      obtain ⟨place, leads, ⟨swallows, rfl⟩ | rewritten⟩ := FileStore.write_eq_ok written
      · exact .inl (.sink asked leads swallows)
      · -- The path leads to the file that it has just been given to.
        exact .inl (.file asked leads (FileStore.reach_of_destination leads) rewritten
          (fun _ => rewritten.read_there) fun _ _ => rewritten.read_elsewhere)

/-- A text is delivered by a run without an error. -/
theorem Delivers.result {text : String} {report : RunReport}
    (delivered : o.Delivers store text report) : report.result = .ok () := by
  -- Each way to deliver reports success.
  cases delivered <;> rfl

/-- A run delivers what its pipeline makes, or it is refused. -/
theorem run_cases (o : Options) (store : FileStore) (out : StandardOutput) :
    (∃ outcome, o.Makes store (.ok outcome) ∧
        o.Delivers store outcome.toJson.pretty (o.run store out)) ∨ ∃ e, o.Refuses store out e := by
  -- What is made has to be delivered, too.
  rcases o.makes_or_refuses store out with ⟨outcome, made⟩ | refused
  · exact (delivers_or_refuses made).imp_left fun delivered => ⟨outcome, made, delivered⟩
  · exact .inr refused

/-- A run ends in an error exactly if it is refused for that reason. -/
theorem run_eq_error_iff {e : RunError} :
    (o.run store out).result = .error e ↔ o.Refuses store out e := by
  constructor
  · -- A refusal fixes the report, so that no two reasons end in different errors.
    intro failed
    rcases o.run_cases store out with ⟨outcome, made, delivered⟩ | ⟨e', refused⟩
    · rw [delivered.result] at failed
      cases failed
    · rw [run_of_refuses refused] at failed
      cases failed
      exact refused
  · intro refused
    rw [run_of_refuses refused]

/-- A run without an error delivers what its pipeline makes. -/
theorem delivers_of_run (succeeded : (o.run store out).result = .ok ()) :
    ∃ outcome, o.Makes store (.ok outcome) ∧
      o.Delivers store outcome.toJson.pretty (o.run store out) := by
  -- A run that is refused does not succeed.
  rcases o.run_cases store out with delivered | ⟨e, refused⟩
  · exact delivered
  · rw [run_of_refuses refused] at succeeded
    cases succeeded

/-- What is left of a program is what its run leaves, and its code tells whether that succeeded. -/
theorem execute_of_parse {words : List String} (accepted : CommandLine.parse words = .ok o)
    (store : FileStore) (out : StandardOutput) :
    (execute words store out).stdout = (o.run store out).stdout ∧
      (execute words store out).store = (o.run store out).store ∧
      ((execute words store out).code = 0 ↔ (o.run store out).result = .ok ()) := by
  -- The program passes on what its run reports, with a code for the result.
  simp only [execute, accepted]
  cases (o.run store out).result with
  | error e => simp
  | ok _ => simp

/-- The words that are accepted say something, and the options of the run are what they say, with
the defaults for what they do not say.

Every run among any files, with any standard output, ends in one of two ways. Either it fails for
one of the reasons above: then nothing is shown on standard output, and every file is what it was.
Or it succeeds: then the JSON text of what the pipeline makes of the graph file goes to the one
place that the options name, and it is read back as just that, with and without the line feed that
standard output receives. The program ends with the code zero in the second case only. -/
theorem publishes_all_or_nothing {words : List String} {o : Options}
    (accepted : CommandLine.parse words = .ok o) (store : FileStore) (out : StandardOutput) :
    (∃ args, CommandLine.Spells words args) ∧
    (∀ args, CommandLine.Spells words args → CommandLine.GivenBy o args) ∧
    (∀ e, (o.run store out).result = .error e ↔ o.Refuses store out e) ∧
    (∀ e, (o.run store out).result = .error e → o.run store out = ⟨.error e, "", store⟩) ∧
    ((o.run store out).result = .ok () → ∃ outcome, o.Makes store (.ok outcome) ∧
      o.Delivers store outcome.toJson.pretty (o.run store out) ∧
      Reader.ofText Outcome.reader outcome.toJson.pretty = .ok outcome ∧
      Reader.ofText Outcome.reader (outcome.toJson.pretty ++ "\n") = .ok outcome) ∧
    (execute words store out).stdout = (o.run store out).stdout ∧
    (execute words store out).store = (o.run store out).store ∧
    ((execute words store out).code = 0 ↔ (o.run store out).result = .ok ()) := by
  obtain ⟨args, spelled, _⟩ := CommandLine.parse_eq_ok_iff.mp accepted
  refine ⟨⟨args, spelled⟩,
    fun _ spelled => (CommandLine.parse_eq_ok_iff_of_spells spelled).mp accepted,
    fun e => run_eq_error_iff, fun e failed => ?_, fun succeeded => ?_,
    execute_of_parse accepted store out⟩
  · exact run_of_refuses (run_eq_error_iff.mp failed)
  · obtain ⟨outcome, made, delivered⟩ := delivers_of_run succeeded
    -- An outcome has far fewer levels than a text may have.
    have few : 9 < depthLimit := by decide
    exact ⟨outcome, made, delivered, (Outcome.reads_back.roundTrips few).pretty outcome,
      Outcome.reads_back.ofText_line few outcome⟩

end Options

namespace Sample

/-- The words of a run whose outcome takes the place of its own graph file. -/
def words : List String :=
  -- Values are given in four ways: in a word of their own, behind an equals sign, attached to a
  -- letter, and behind letters that begin with the flag.
  ["--config", "settings.json", "--include=App", "-xKit", "-vo", "graph.json"]

/-- What the words say. -/
def arguments : List CommandLine.Argument :=
  [.setting .config "settings.json", .setting .included "App", .setting .excluded "Kit", .verbose,
    .setting .output "graph.json"]

/-- The options that the words give. -/
def options : Options where
  config := some ⟨"settings.json"⟩
  included := ["App"]
  excluded := ["Kit"]
  output := ⟨"graph.json"⟩
  verbose := true

/-- A store with the settings and the small workspace. -/
def store : FileStore :=
  -- One of the files is the place of the outcome at the same time.
  (({} : FileStore).put ["settings.json"] (.file settings.toJson.pretty.toUTF8)).put ["graph.json"]
    (.file workspace.toJson.pretty.toUTF8)

/-- The settings of the file with the wishes of the words. -/
def wishes : Settings :=
  settings.mergedWith options.testPlan options.included options.excluded

/-- A ledger with the application as what was asked for. -/
def applicationAsked : Ledger :=
  -- The application is included by name, so it counts as requested.
  ({} : Ledger).recordRequested [⟨project.path, "App"⟩]

/-- What the run makes of the small workspace if the application is asked for. -/
def applicationOutcome : Outcome :=
  { outcome with ledger :=
      (focused.replaceable artifacts).foldl Ledger.recordReplacement applicationAsked }

/-- The words say what was written down above. -/
theorem spells_words : CommandLine.Spells words arguments := by
  -- The words are read from the front; the last two belong together.
  have fits : CommandLine.IsValue "graph.json" := .inr (by decide)
  have named : CommandLine.Setting.letter? .output = some 'o' := rfl
  have last : CommandLine.Spells ["-vo", "graph.json"]
      [.verbose, .setting .output "graph.json"] := .lettered 1 named fits .nothing
  have attached : CommandLine.Letters ['x', 'K', 'i', 't'] [.setting .excluded "Kit"] :=
    .attached rfl (by decide) (by decide)
  exact .named .config (.inr (by decide)) <|
    .equals .included "App" (.letters (by decide) attached last)

/-- The focus on the application lists all that it needs, be it excluded or not. -/
theorem focus_application :
    wishes.selection.focus workspace.wired {} = .ok (focused, applicationAsked) := by
  -- The search below the application is followed for as many steps as it takes.
  have ended : workspace.wired.followed (wishes.selection.sources workspace.wired) 20 =
      some (.ok (targets workspace.wired ["Core", "Kit", "App"])) := rfl
  exact Selection.focus_of_followed rfl ended

/-- The substitution lists the foreign build before the application that was asked for. -/
theorem substitute_application : focused.substitute artifacts applicationAsked =
    .ok (applicationOutcome.workspace, applicationOutcome.ledger) := by
  -- The search below the application is followed for as many steps as it takes.
  have ended : replaced.followed (replaced.liveSources (focused.liveRoots applicationAsked)) 20 =
      some (.ok (targets replaced ["Kit", "App"])) := rfl
  exact Workspace.substitute_of_followed rfl ended

/-- The run on the files makes of the small workspace what it comes to. -/
theorem makes_outcome : options.Makes store (.ok applicationOutcome) := by
  have configured : options.Configured store settings := by
    refine .named rfl (FileStore.read_eq_ok_iff.mpr ⟨_, _, rfl, rfl, rfl, FileNode.text_file _⟩) ?_
    exact (Settings.reads_back.roundTrips (by decide)).pretty settings
  have concerns : options.Concerns store workspace := by
    refine ⟨_, FileStore.read_eq_ok_iff.mpr ⟨_, _, rfl, rfl, rfl, FileNode.text_file _⟩, ?_⟩
    exact (Workspace.reads_back.roundTrips (by decide)).pretty workspace
  -- The artefact of the foreign build is missing.
  have ran : ((wishes.pipeline store.surroundings.probe).run workspace).result =
      .ok applicationOutcome :=
    Settings.run_eq_ok.mpr ⟨_, _, focus_application, substitute_application, rfl⟩
  exact ⟨settings, wishes, workspace, configured, Options.layers_iff.mpr rfl, concerns, ran⟩

end Sample

/-- The words of the run on the small workspace say what its options are. It ends well, says nothing
on standard output, and leaves its outcome in the file in which the workspace was. -/
theorem Options.publishes_all_or_nothing_of_sample :
    CommandLine.parse Sample.words = .ok Sample.options ∧
    CommandLine.GivenBy Sample.options Sample.arguments ∧
    Sample.options.Makes Sample.store (.ok Sample.applicationOutcome) ∧
    (execute Sample.words Sample.store).code = 0 ∧
    (execute Sample.words Sample.store).stdout = "" ∧
    (execute Sample.words Sample.store).store.read ⟨"graph.json"⟩ =
      .ok Sample.applicationOutcome.toJson.pretty := by
  have accepted : CommandLine.parse Sample.words = .ok Sample.options := rfl
  obtain ⟨_, given, refused, _, delivered, said, left, code⟩ :=
    publishes_all_or_nothing accepted Sample.store {}
  have succeeded : (Sample.options.run Sample.store).result = .ok () := by
    rw [run_of_makes Sample.makes_outcome]
    rfl
  obtain ⟨outcome, made, delivery, _⟩ := delivered succeeded
  have same : outcome = Sample.applicationOutcome := by
    simpa using (outcome_of_makes made).symm.trans (outcome_of_makes Sample.makes_outcome)
  refine ⟨accepted, given _ Sample.spells_words, Sample.makes_outcome, code.mpr succeeded, ?_⟩
  rw [said, left]
  -- The path names a file that is there already.
  generalize Sample.options.run Sample.store = report at delivery
  cases delivery with
  | standardOutput asked => simp [Sample.options] at asked
  | file _ _ reached _ there => exact ⟨rfl, by rw [← same]; exact there _ reached rfl⟩
  | sink _ leads swallows =>
    cases (Except.ok.inj leads : ["graph.json"] = _)
    cases swallows

end BuildGraph
