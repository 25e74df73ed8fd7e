import BuildGraph.Proofs.CommandLine.Accepted

/-! The options of a run are set by what the words of its command line say, and by nothing else. -/

namespace BuildGraph.CommandLine

/-- The setting that an argument gives a value to, with that value. -/
def Argument.given? : Argument → Option (Setting × String)
  -- The flag gives no value.
  | setting s value => some (s, value)
  | verbose => none

/-- The values that arguments give to a setting, in order. -/
def valuesOf (s : Setting) (args : List Argument) : List String :=
  -- The order matters for names that are included or excluded, and for nothing else.
  args.filterMap fun
    | .setting t value => if t = s then some value else none
    | .verbose => none

/-- The options are what the arguments make of the defaults: what can be asked for once is asked for
at most once, and every name that is included or excluded counts, in order. -/
structure GivenBy (o : Options) (args : List Argument) : Prop where
  -- A default stands only where nothing is given, and is not told from the same value given.
  graph : valuesOf .graph args = [o.graph.text] ∨
    valuesOf .graph args = [] ∧ o.graph.text = "graph.json"
  config : valuesOf .config args = (o.config.map Path.text).toList
  testPlan : valuesOf .testPlan args = o.testPlan.toList
  included : valuesOf .included args = o.included
  excluded : valuesOf .excluded args = o.excluded
  output : valuesOf .output args = [o.output.text] ∨
    valuesOf .output args = [] ∧ o.output.text = "-"
  verbose : args.count .verbose = if o.verbose then 1 else 0

namespace Reading

section Given

variable {r r' : Reading} {a : Argument} {args : List Argument}

/-- Further arguments are not too many for a reading. -/
structure Fits (r : Reading) (args : List Argument) : Prop where
  -- Only what cannot be repeated can be given too often, and the flag is of that kind.
  once : ∀ s : Setting, s.isRepeatable = false → (r.values s ++ valuesOf s args).length ≤ 1
  verbose : r.verbose.toNat + args.count .verbose ≤ 1

/-- The reading with all that arguments give. -/
def after (r : Reading) (args : List Argument) : Reading :=
  -- Nothing is checked here: whether the arguments fit is a question of its own.
  { r with
    given := r.given ++ args.filterMap Argument.given?
    verbose := r.verbose || args.contains .verbose }

/-- The values of a reading are joined by those that arguments give. -/
theorem values_after (r : Reading) (args : List Argument) (s : Setting) :
    (r.after args).values s = r.values s ++ valuesOf s args := by
  simp only [values, after, List.filter_append, List.map_append]
  congr 1
  -- The induction is on the arguments, each of which counts for one setting at most.
  induction args with
  | nil => rfl
  | cons a rest ih =>
    cases a with
    | setting t value => by_cases same : t = s <;> simp_all [Argument.given?, valuesOf]
    | verbose => exact ih

/-- Arguments that are given one after another are all given. -/
theorem after_cons (r : Reading) (a : Argument) (args : List Argument) :
    r.after (a :: args) = (r.after [a]).after args := by
  -- Both put the values of the first argument in front of those of the others.
  have given : (a :: args).filterMap Argument.given? =
      [a].filterMap Argument.given? ++ args.filterMap Argument.given? :=
    List.filterMap_append (l := [a])
  simp [after, given, Bool.or_assoc]

/-- Arguments fit if each of them does after those in front of it. -/
theorem fits_cons : r.Fits (a :: args) ↔ r.Fits [a] ∧ (r.after [a]).Fits args := by
  have values (s : Setting) : r.values s ++ valuesOf s (a :: args) =
      (r.after [a]).values s ++ valuesOf s args := by
    rw [values_after, List.append_assoc]
    exact congrArg _ (List.filterMap_append (l := [a]))
  -- The flag counts no matter which of the arguments raises it.
  have verbose : r.verbose.toNat + (a :: args).count .verbose ≤ 1 ↔
      r.verbose.toNat + [a].count .verbose ≤ 1 ∧
        (r.after [a]).verbose.toNat + args.count .verbose ≤ 1 := by
    rw [← List.singleton_append, List.count_append]
    cases raised : r.verbose <;> cases a <;> grind [after]
  constructor
  · rintro ⟨once, said⟩
    refine ⟨⟨fun s single => ?_, (verbose.mp said).1⟩, fun s single => ?_, (verbose.mp said).2⟩
    · have most := once s single
      rw [values, List.length_append] at most
      rw [← values_after]
      omega
    · rw [← values]
      exact once s single
  · rintro ⟨⟨_, first⟩, once, others⟩
    exact ⟨fun s single => values s ▸ once s single, verbose.mpr ⟨first, others⟩⟩

/-- An argument is given to a reading if it fits. -/
theorem give_eq_ok_iff (fits : r.Fits []) :
    r.give a = .ok r' ↔ r.Fits [a] ∧ r' = r.after [a] := by
  cases a with
  | setting s value =>
    have refused : (!s.isRepeatable && r.given.any (·.1 = s)) = true ↔
        s.isRepeatable = false ∧ r.values s ≠ [] := by
      simp [values]
    -- A value fits unless its setting has one and can have no other.
    have fitting : r.Fits [.setting s value] ↔ (s.isRepeatable = false → r.values s = []) := by
      constructor
      · intro fit single
        have most := fit.once s single
        simp [valuesOf] at most
        exact most
      · intro free
        refine ⟨fun t single => ?_, by simpa using fits.verbose⟩
        by_cases same : s = t
        · subst same
          simp [free single, valuesOf]
        · simpa [valuesOf, same] using fits.once t single
    have given : r.after [.setting s value] = { r with given := r.given ++ [(s, value)] } := by
      simp [after, Argument.given?]
    rw [fitting, given, give, record]
    split <;> rename_i there <;> rw [refused] at there
    · simp [there]
    · simp only [not_and, ne_eq, not_not] at there
      exact ⟨fun done => ⟨there, (Except.ok.inj done).symm⟩, fun fit => congrArg _ fit.2.symm⟩
  | verbose =>
    have fitting : r.Fits [.verbose] ↔ r.verbose = false := by
      constructor
      · intro fit
        have most := fit.verbose
        cases raised : r.verbose <;> simp_all
      · intro free
        exact ⟨fits.once, by simp [free]⟩
    have given : [Argument.verbose].filterMap Argument.given? = [] := rfl
    rw [fitting, give]
    cases r.verbose <;> simp [after, given, eq_comm]

/-- Arguments are given to a reading if all of them fit. -/
theorem foldlM_give_eq_ok_iff (fits : r.Fits []) :
    args.foldlM give r = .ok r' ↔ r.Fits args ∧ r' = r.after args := by
  -- The induction is on the arguments; each of them leaves a reading that nothing more fits.
  induction args generalizing r with
  | nil =>
    have unchanged : r.after [] = r := by simp [after]
    rw [unchanged]
    exact ⟨fun done => ⟨fits, (Except.ok.inj done).symm⟩, fun fit => congrArg _ fit.2.symm⟩
  | cons a rest ih =>
    rw [List.foldlM_cons, bind_eq_ok_iff, fits_cons, after_cons r a rest]
    constructor
    · rintro ⟨r₁, first, others⟩
      obtain ⟨fit, rfl⟩ := (give_eq_ok_iff fits).mp first
      obtain ⟨more, same⟩ := (ih (fits_cons.mp fit).2).mp others
      exact ⟨⟨fit, more⟩, same⟩
    · rintro ⟨⟨fit, more⟩, same⟩
      exact ⟨_, (give_eq_ok_iff fits).mpr ⟨fit, rfl⟩, (ih (fits_cons.mp fit).2).mpr ⟨more, same⟩⟩

/-- The value of a setting is the first that it has. -/
theorem value?_eq_head? (r : Reading) (s : Setting) : r.value? s = (r.values s).head? := by
  rw [value?, values]
  -- The induction is on what has been given, in which the setting is looked for.
  induction r.given with
  | nil => rfl
  | cons entry rest ih =>
    obtain ⟨t, value⟩ := entry
    by_cases here : t = s
    · subst here
      simp [List.lookup_cons_self]
    · have other : (s == t) = false := beq_eq_false_iff_ne.mpr (Ne.symm here)
      rw [List.lookup_cons, other, List.filter_cons_of_neg (by simpa using here)]
      exact ih

/-- A setting with a default and at most one value has that value or the default. -/
theorem elim_head?_eq_iff {values : List String} {default : String} {p : Path} :
    values.length ≤ 1 ∧ values.head?.elim ⟨default⟩ Path.mk = p ↔
      values = [p.text] ∨ values = [] ∧ p.text = default := by
  -- No value, one value, or more than the setting takes.
  obtain ⟨text⟩ := p
  match values with
  | [] => simp [eq_comm]
  | [value] => simp
  | _ :: _ :: _ => simp

/-- A setting without a default and with at most one value has just that value. -/
theorem head?_eq_iff {values : List String} {value : Option String} :
    values.length ≤ 1 ∧ values.head? = value ↔ values = value.toList := by
  -- No value, one value, or more than the setting takes.
  match values with
  | [] => cases value <;> simp
  | [_] => cases value <;> simp
  | _ :: _ :: _ => cases value <;> simp

/-- A text that may be there is that of a path just if the path is that of the text. -/
theorem map_mk_eq_iff {text : Option String} {p : Option Path} :
    text.map Path.mk = p ↔ text = p.map Path.text := by
  -- A path is a text and nothing else.
  cases text <;> rcases p with _ | ⟨⟨_⟩⟩ <;> simp

/-- The flag is raised if it is given once, and not if it is not given. -/
theorem contains_eq_iff {raised : Bool} :
    args.count .verbose ≤ 1 ∧ args.contains .verbose = raised ↔
      args.count .verbose = if raised then 1 else 0 := by
  -- It is contained just if it is counted at all, and then the count is one.
  have given : args.contains .verbose = true ↔ 0 < args.count .verbose := by
    rw [List.contains_iff_mem, List.count_pos_iff]
  generalize args.contains .verbose = there at given
  generalize args.count .verbose = number at given
  cases there <;> cases raised <;> simp at given ⊢ <;> omega

/-- Arguments that fit give the options that they say. -/
theorem options_after_iff {o : Options} :
    ({} : Reading).Fits args ∧ (({} : Reading).after args).options = o ↔ GivenBy o args := by
  have values (s : Setting) : (({} : Reading).after args).values s = valuesOf s args :=
    values_after {} args s
  have made : (({} : Reading).after args).options = {
      graph := (valuesOf .graph args).head?.elim ⟨"graph.json"⟩ Path.mk
      config := (valuesOf .config args).head?.map Path.mk
      testPlan := (valuesOf .testPlan args).head?
      included := valuesOf .included args
      excluded := valuesOf .excluded args
      output := (valuesOf .output args).head?.elim ⟨"-"⟩ Path.mk
      verbose := args.contains .verbose } := by
    simp only [options, value?_eq_head?, values]
    rfl
  rw [made]
  constructor
  · rintro ⟨⟨once, raised⟩, rfl⟩
    exact {
      graph := elim_head?_eq_iff.mp ⟨once .graph rfl, rfl⟩
      config := head?_eq_iff.mp ⟨once .config rfl, map_mk_eq_iff.mp rfl⟩
      testPlan := head?_eq_iff.mp ⟨once .testPlan rfl, rfl⟩
      included := rfl
      excluded := rfl
      output := elim_head?_eq_iff.mp ⟨once .output rfl, rfl⟩
      verbose := contains_eq_iff.mp ⟨by simpa using raised, rfl⟩ }
  · intro said
    obtain ⟨oneGraph, graph⟩ := elim_head?_eq_iff.mpr said.graph
    obtain ⟨oneConfig, config⟩ := head?_eq_iff.mpr said.config
    obtain ⟨onePlan, testPlan⟩ := head?_eq_iff.mpr said.testPlan
    obtain ⟨oneOutput, output⟩ := elim_head?_eq_iff.mpr said.output
    obtain ⟨oneFlag, verbose⟩ := contains_eq_iff.mpr said.verbose
    refine ⟨⟨fun s single => ?_, by simpa using oneFlag⟩, ?_⟩
    · -- Names are included and excluded as often as one likes.
      cases s with
      | graph => exact oneGraph
      | config => exact oneConfig
      | testPlan => exact onePlan
      | output => exact oneOutput
      | included => cases single
      | excluded => cases single
    · rw [graph, map_mk_eq_iff.mpr config, testPlan, said.included, said.excluded, output, verbose]

end Given

end Reading

variable {words : List String} {o : Options}

/-- Words are parsed by reading all of them. -/
theorem parse_eq (words : List String) :
    parse words = (({} : Reading).finish words).map Reading.options := by
  rw [parse, Reading.finish]
  -- An error of either step is passed through.
  cases words.foldlM Reading.step {} with
  | error e => rfl
  | ok r =>
    change (r.settle >>= fun r => Except.ok r.options) = r.settle.map Reading.options
    cases r.settle <;> rfl

/-- Words give the options that they say, whatever they are taken to say. -/
theorem parse_eq_ok_iff_of_spells {args : List Argument} (spelled : Spells words args) :
    parse words = .ok o ↔ GivenBy o args := by
  -- Of a reading, what has been said counts for the options.
  have options (x : Except Stop Reading) : x.map Reading.options =
      (x.map Reading.said).map fun said => Reading.options ⟨said.1, said.2, none, false⟩ := by
    cases x <;> rfl
  have fits : ({} : Reading).Fits [] := ⟨fun _ _ => Nat.zero_le _, Nat.zero_le _⟩
  rw [parse_eq, options, Reading.finish_spelled spelled ⟨rfl, rfl⟩, ← options,
    ← Reading.options_after_iff]
  cases given : args.foldlM Reading.give {} with
  | error e =>
    have unfit : ¬ ({} : Reading).Fits args := fun fit => by
      have := (Reading.foldlM_give_eq_ok_iff fits).mpr ⟨fit, rfl⟩
      rw [given] at this
      cases this
    simp [unfit, Except.map]
  | ok r =>
    obtain ⟨fit, rfl⟩ := (Reading.foldlM_give_eq_ok_iff fits).mp given
    simp [fit, Except.map]

/-- Words are accepted just if they say something, and what they say gives the options. -/
theorem parse_eq_ok_iff : parse words = .ok o ↔ ∃ args, Spells words args ∧ GivenBy o args := by
  constructor
  · intro accepted
    -- Words that say nothing leave no reading, and so no options.
    have read : ∃ r, ({} : Reading).finish words = .ok r := by
      rw [parse_eq] at accepted
      cases finished : ({} : Reading).finish words with
      | error e =>
        rw [finished] at accepted
        cases accepted
      | ok r => exact ⟨r, rfl⟩
    obtain ⟨r, read⟩ := read
    obtain ⟨args, spelled⟩ := Reading.exists_spells rfl (by simp) read
    exact ⟨args, spelled, (parse_eq_ok_iff_of_spells spelled).mp accepted⟩
  · rintro ⟨args, spelled, given⟩
    exact (parse_eq_ok_iff_of_spells spelled).mpr given

end BuildGraph.CommandLine
