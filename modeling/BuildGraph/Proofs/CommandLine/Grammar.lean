import BuildGraph.CommandLine
import BuildGraph.Proofs.Matching

/-! What the words of a command line say, and that words which say something are read as that. -/

namespace BuildGraph.CommandLine

/-- One thing that a command line says. -/
inductive Argument where
  -- Help and version are left out, since no accepted command line has them.
  | setting (s : Setting) (value : String)
  | verbose
deriving DecidableEq, Repr

namespace Setting

/-- The name of a setting behind two dashes. -/
def longName : Setting → String
  -- These are the names of the grammar, without a look at the table of the reader.
  | graph => "graph"
  | config => "config"
  | testPlan => "test-plan"
  | included => "include"
  | excluded => "exclude"
  | output => "output"

/-- The letter of a setting behind one dash, if it has one. -/
def letter? : Setting → Option Char
  -- No two settings share a letter, and none of them is that of the flag.
  | graph => some 'g'
  | config => some 'c'
  | testPlan => none
  | included => some 'i'
  | excluded => some 'x'
  | output => some 'o'

end Setting

/-- A word that can follow a setting as its value, since it does not look like a switch. -/
def IsValue (word : String) : Prop :=
  -- A dash alone does not look like a switch.
  word = "-" ∨ word.toList.head? ≠ some '-'

/-- What the letters behind one dash say within their own word. -/
inductive Letters : List Char → List Argument → Prop where
  -- A setting takes the rest of the word, so at most one of them stands here, at the end.
  | nothing : Letters [] []
  | verbose {letters : List Char} {args : List Argument} (rest : Letters letters args) :
    Letters ('v' :: letters) (.verbose :: args)
  /-- The value is attached to the letter. -/
  | attached {s : Setting} {c : Char} {value : List Char} (named : s.letter? = some c)
    (filled : value ≠ []) (plain : value.head? ≠ some '=') :
    Letters (c :: value) [.setting s (String.ofList value)]
  | equals {s : Setting} {c : Char} (named : s.letter? = some c) (value : List Char) :
    Letters (c :: '=' :: value) [.setting s (String.ofList value)]

/-- What the words of a command line say, one after another. -/
inductive Spells : List String → List Argument → Prop where
  -- The rules cover the words from left to right, and two of them take two words at once.
  | nothing : Spells [] []
  /-- Behind two dashes, nothing is a switch, and there is nothing else to come. -/
  | dashes : Spells ["--"] []
  | verbose {words : List String} {args : List Argument} (rest : Spells words args) :
    Spells ("--verbose" :: words) (.verbose :: args)
  /-- A setting by its name, with its value in the next word. -/
  | named {words : List String} {args : List Argument} {value : String} (s : Setting)
    (fits : IsValue value) (rest : Spells words args) :
    Spells (("--" ++ s.longName) :: value :: words) (.setting s value :: args)
  /-- A setting by its name, with its value in the same word. -/
  | equals {words : List String} {args : List Argument} (s : Setting) (value : String)
    (rest : Spells words args) :
    Spells (("--" ++ s.longName ++ "=" ++ value) :: words) (.setting s value :: args)
  | letters {words : List String} {args here : List Argument} {letters : List Char}
    (filled : letters ≠ []) (said : Letters letters here) (rest : Spells words args) :
    Spells (("-" ++ String.ofList letters) :: words) (here ++ args)
  /-- A setting by its letter, perhaps behind those of flags, with its value in the next word. -/
  | lettered {words : List String} {args : List Argument} {s : Setting} {c : Char}
    {value : String} (flags : Nat) (named : s.letter? = some c) (fits : IsValue value)
    (rest : Spells words args) :
    Spells (("-" ++ String.ofList (List.replicate flags 'v' ++ [c])) :: value :: words)
      (List.replicate flags .verbose ++ .setting s value :: args)

namespace Reading

/-- The reading after one more thing that is said. -/
def give (r : Reading) : Argument → Except Stop Reading
  -- The same checks are made as for words, without any words.
  | .setting s value => r.record s value
  | .verbose => if r.verbose then .error .argumentConflict else .ok { r with verbose := true }

/-- What comes of a reading with the words that are left. -/
def finish (r : Reading) (words : List String) : Except Stop Reading := do
  -- The last setting may still be waiting, so the end of the words decides too.
  (← words.foldlM step r).settle

/-- No value is being waited for. -/
def Settled (r : Reading) : Prop :=
  -- Two dashes have not been read either, since behind them no word is accepted.
  r.trailing = false ∧ r.pending = none

/-- A reading that no value is being waited for is settled. -/
theorem settle_eq_self {r : Reading} (settled : r.pending = none) : r.settle = .ok r := by
  -- Settling is about what is being waited for only.
  rw [settle, settled]

/-- Giving a value does not change what is being waited for. -/
theorem record_eq_ok {r r' : Reading} {s : Setting} {value : String}
    (given : r.record s value = .ok r') : r' = { r with given := r.given ++ [(s, value)] } := by
  -- It is refused for a second value of a setting that takes one, and otherwise put behind the
  -- values before.
  rw [record] at given
  split at given
  · cases given
  · exact (Except.ok.inj given).symm

/-- Nothing is being waited for once a reading is settled. -/
theorem settled_of_settle {r r' : Reading} (settled : r.settle = .ok r') :
    r'.pending = none ∧ r'.trailing = r.trailing := by
  -- Nothing was waited for, or it had its value, which is recorded now.
  rw [settle] at settled
  split at settled
  · rename_i none
    cases settled
    exact ⟨none, rfl⟩
  · cases settled
  · rw [record_eq_ok settled]
    exact ⟨rfl, rfl⟩

/-- A reading is settled no further than once. -/
theorem settle_settle (r : Reading) : (r.settle >>= settle) = r.settle := by
  -- After the first time there is nothing left to settle.
  cases settled : r.settle with
  | error e => rfl
  | ok r' => exact settle_eq_self (settled_of_settle settled).1

/-- The first thing that a setting does is to settle the reading. -/
theorem take_settle (r : Reading) (s : Setting) (value : Option String) :
    (r.settle >>= fun r => r.take s value) = r.take s value := by
  -- The reading is settled inside, where a second time does nothing.
  simp only [take]
  rw [← bind_assoc, settle_settle]

/-- The first thing that a flag does is to settle the reading. -/
theorem raise_settle (r : Reading) (f : Flag) :
    (r.settle >>= fun r => r.raise f) = r.raise f := by
  -- The reading is settled inside, where a second time does nothing.
  simp only [raise]
  rw [← bind_assoc, settle_settle]

/-- A setting is known by its own letter, and by no other. -/
theorem ofLetter?_eq_setting_iff {s : Setting} {c : Char} :
    Switch.ofLetter? c = some (.setting s) ↔ s.letter? = some c := by
  constructor
  · -- One case for each letter that is known.
    intro known
    unfold Switch.ofLetter? at known
    split at known <;> cases known <;> rfl
  · -- One case for each setting that has a letter.
    intro named
    cases s <;> cases named <;> rfl

section Letters

variable {c : Char} {s : Setting} (r : Reading)

/-- The letter of a flag raises it, and the other letters are read behind it. -/
theorem short_flag {f : Flag} (known : Switch.ofLetter? c = some (.flag f)) (rest : List Char) :
    r.short (c :: rest) = r.raise f >>= fun r => r.short rest := by
  -- This is the branch of `short` for a letter of a flag.
  simp only [short, known]

/-- The letter of a setting alone leaves its value to the next word. -/
theorem short_apart (known : Switch.ofLetter? c = some (.setting s)) :
    r.short [c] = r.take s none := by
  -- This is the branch of `short` for a letter with nothing behind it.
  simp only [short, known]

/-- What follows the letter of a setting and an equals sign is its value. -/
theorem short_equals (known : Switch.ofLetter? c = some (.setting s)) (value : List Char) :
    r.short (c :: '=' :: value) = r.take s (some (String.ofList value)) := by
  -- Only the first equals sign behind a letter is dropped.
  simp only [short, known]

/-- What follows the letter of a setting is its value, unless it begins with an equals sign. -/
theorem short_attached (known : Switch.ofLetter? c = some (.setting s)) {value : List Char}
    (filled : value ≠ []) (plain : value.head? ≠ some '=') :
    r.short (c :: value) = r.take s (some (String.ofList value)) := by
  simp only [short, known]
  -- The other readings are of no value and of one behind an equals sign.
  split <;> simp_all

/-- What follows the letter of a setting only tells which value that takes, if it takes one now. -/
theorem exists_short_setting (known : Switch.ofLetter? c = some (.setting s)) (rest : List Char) :
    ∃ value, (∀ r : Reading, r.short (c :: rest) = r.take s value) ∧
      (value = none ∧ rest = [] ∨ ∃ v, value = some v ∧ Letters (c :: rest) [.setting s v]) := by
  have named := ofLetter?_eq_setting_iff.mp known
  -- Nothing follows, or an equals sign in front of the value, or the value at once.
  by_cases filled : rest = []
  · subst filled
    exact ⟨none, fun r => short_apart r known, .inl ⟨rfl, rfl⟩⟩
  · by_cases plain : rest.head? = some '='
    · obtain ⟨value, rfl⟩ := List.head?_eq_some_iff.mp plain
      exact ⟨_, fun r => short_equals r known value, .inr ⟨_, rfl, .equals named value⟩⟩
    · exact ⟨_, fun r => short_attached r known filled plain,
        .inr ⟨_, rfl, .attached named filled plain⟩⟩

/-- The first thing that known letters do is to settle the reading. -/
theorem short_settle {switch : Switch} (known : Switch.ofLetter? c = some switch)
    (rest : List Char) : (r.settle >>= fun r => r.short (c :: rest)) = r.short (c :: rest) := by
  cases switch with
  | flag f =>
    simp only [short_flag _ known]
    rw [← bind_assoc, raise_settle]
  | setting s =>
    -- Whatever follows the letter, its setting is taken.
    obtain ⟨value, reads, _⟩ := exists_short_setting known rest
    simp only [reads, take_settle]

end Letters

/-- A setting of a settled reading takes a value at once. -/
theorem take_some {r : Reading} (settled : r.pending = none) (s : Setting) (value : String) :
    r.take s (some value) = r.give (.setting s value) := by
  -- There is nothing to settle, and the value does not have to be waited for.
  rw [take, settle_eq_self settled]
  rfl

/-- A flag of a settled reading is raised at once. -/
theorem raise_verbose {r : Reading} (settled : r.pending = none) :
    r.raise .verbose = r.give .verbose := by
  -- There is nothing to settle.
  rw [raise, settle_eq_self settled]
  rfl

/-- The name of a setting alone leaves its value to the next word. -/
theorem long_setting (r : Reading) (s : Setting) : r.long s.longName.toList = r.take s none := by
  -- One case for each setting: no name contains an equals sign.
  cases s <;> rfl

/-- What follows the name of a setting and an equals sign is its value. -/
theorem long_equals (r : Reading) (s : Setting) (value : List Char) :
    r.long (s.longName.toList ++ '=' :: value) = r.take s (some (String.ofList value)) := by
  -- One case for each setting: no name contains an equals sign, so the first one ends it.
  cases s <;> rfl

/-- Nothing is being waited for while things are said. -/
theorem settled_of_give {r r' : Reading} {a : Argument} (settled : r.Settled)
    (given : r.give a = .ok r') : r'.Settled := by
  -- What is given is recorded and changes nothing else.
  cases a with
  | setting s value =>
    rw [record_eq_ok given]
    exact settled
  | verbose =>
    rw [give] at given
    split at given
    · cases given
    · cases given
      exact settled

/-- Nothing is being waited for after several things are said. -/
theorem settled_of_foldlM {r r' : Reading} {args : List Argument} (settled : r.Settled)
    (given : args.foldlM give r = .ok r') : r'.Settled := by
  -- By induction on what is said, one thing at a time.
  induction args generalizing r with
  | nil =>
    cases given
    exact settled
  | cons a rest ih =>
    obtain ⟨r₁, first, others⟩ := bind_eq_ok_iff.mp given
    exact ih (settled_of_give settled first) others

/-- Letters that say something on their own say it one after another. -/
theorem short_spelled {letters : List Char} {here : List Argument} (said : Letters letters here)
    {r : Reading} (settled : r.Settled) : r.short letters = here.foldlM give r := by
  -- By induction on the letters. A flag goes on with the reading that it leaves, which is settled
  -- again; a value takes the rest of the word and ends it.
  induction said generalizing r with
  | nothing => rfl
  | verbose rest ih =>
    change (r.raise .verbose >>= fun r => r.short _) = _
    rw [raise_verbose settled.2, List.foldlM_cons]
    cases given : r.give .verbose with
    | error e => rfl
    | ok r₁ => exact ih (settled_of_give settled given)
  | attached named filled plain =>
    rw [short_attached _ (ofLetter?_eq_setting_iff.mpr named) filled plain, take_some settled.2]
    exact (bind_pure _).symm
  | equals named value =>
    rw [short_equals _ (ofLetter?_eq_setting_iff.mpr named), take_some settled.2]
    exact (bind_pure _).symm

/-- Flags in front of other letters are raised before these are read. -/
theorem short_flags {r : Reading} (settled : r.Settled) (flags : Nat) (rest : List Char) :
    r.short (List.replicate flags 'v' ++ rest) =
      (List.replicate flags .verbose).foldlM give r >>= fun r => r.short rest := by
  -- By induction on the number of flags, each of which leaves a settled reading.
  induction flags generalizing r with
  | zero => rfl
  | succ n ih =>
    change (r.raise .verbose >>= fun r => r.short _) = _
    rw [raise_verbose settled.2, List.replicate_succ, List.foldlM_cons, bind_assoc]
    cases given : r.give .verbose with
    | error e => rfl
    | ok r₁ => exact ih (settled_of_give settled given)

section Steps

variable {r : Reading} {word : String}

/-- A word with two dashes in front names something. -/
theorem step_long {name : List Char} (open' : r.trailing = false) (filled : name ≠ [])
    (spelled : word.toList = '-' :: '-' :: name) : r.step word = r.long name := by
  -- With a first letter behind the dashes the word is not the two dashes alone.
  cases name with
  | nil => exact absurd rfl filled
  | cons c rest => simp [step, open', spelled]

/-- A word with one dash in front has letters. -/
theorem step_short {c : Char} {rest : List Char} (open' : r.trailing = false) (other : c ≠ '-')
    (spelled : word.toList = '-' :: c :: rest) : r.step word = r.short (c :: rest) := by
  rw [step, if_neg (by simp [open'])]
  -- Words with two dashes are told apart by the character behind the first.
  split
  · rename_i dashes
    rw [spelled] at dashes
    cases dashes
    exact absurd rfl other
  · rename_i named
    rw [spelled] at named
    cases named
    exact absurd rfl other
  · rename_i lettered
    rw [spelled] at lettered
    cases lettered
    rfl
  · rename_i bare
    exact absurd spelled (bare _ _)

/-- A word that can be a value is read as one. -/
theorem step_value (open' : r.trailing = false) (fits : IsValue word) :
    r.step word = r.value word := by
  -- A single dash is a value, and all other words with a dash in front fall into the branches that
  -- `IsValue` excludes.
  rw [step, if_neg (by simp [open'])]
  rcases fits with rfl | plain
  · rfl
  · split
    · simp_all
    · simp_all
    · simp_all
    · rfl

/-- The name of the flag raises it. -/
theorem step_verbose (open' : r.trailing = false) : r.step "--verbose" = r.raise .verbose := by
  -- The word is a long name, and this name is that of the flag.
  have spelled : "--verbose".toList = '-' :: '-' :: "verbose".toList := rfl
  rw [step_long open' (by simp) spelled]
  rfl

/-- The name of a setting in a word of its own leaves its value to the next word. -/
theorem step_named (open' : r.trailing = false) (s : Setting) :
    r.step ("--" ++ s.longName) = r.take s none := by
  -- No name is empty, so this is not the word of two dashes.
  have named : s.longName.toList ≠ [] := by cases s <;> simp [Setting.longName]
  rw [step_long open' named String.toList_append, long_setting]

/-- The name of a setting takes the value behind an equals sign. -/
theorem step_equals (open' : r.trailing = false) (s : Setting) (value : String) :
    r.step ("--" ++ s.longName ++ "=" ++ value) = r.take s (some value) := by
  -- The word is written out into letters, where the first equals sign ends the name.
  have spelled : ("--" ++ s.longName ++ "=" ++ value).toList =
      '-' :: '-' :: (s.longName.toList ++ '=' :: value.toList) := by
    simp [String.toList_append]
  rw [step_long open' (by simp) spelled, long_equals, String.ofList_toList]

/-- Known letters are read behind one dash. -/
theorem step_letters (open' : r.trailing = false) {c : Char} {switch : Switch}
    (known : Switch.ofLetter? c = some switch) (rest : List Char) :
    r.step ("-" ++ String.ofList (c :: rest)) = r.short (c :: rest) := by
  -- A dash is no letter.
  have other : c ≠ '-' := by
    rintro rfl
    cases known
  exact step_short open' other (by simp [String.toList_append])

/-- Two dashes alone only tell that no switch follows. -/
theorem step_dashes (open' : r.trailing = false) :
    r.step "--" = .ok { r with trailing := true } := by
  -- The dashes close the switches, without settling what is being waited for.
  rw [step, if_neg (by simp [open'])]
  rfl

/-- A word settles the reading first if what is done for it does. -/
theorem settle_step {read : Reading → Except Stop Reading}
    (reads : ∀ r : Reading, r.trailing = false → r.step word = read r)
    (settles : ∀ r, (r.settle >>= read) = read r) (open' : r.trailing = false) :
    (r.settle >>= fun r => r.step word) = r.step word := by
  rw [reads r open', ← settles]
  -- A settled reading is as open as before, so that the word is read in the same way.
  cases settled : r.settle with
  | error e => rfl
  | ok r₀ => exact reads r₀ ((settled_of_settle settled).2.trans open')

end Steps

/-- Letters that say something begin with one that is known. -/
theorem known_of_letters {letters : List Char} {here : List Argument}
    (said : Letters letters here) (written : letters ≠ []) :
    ∃ c rest switch, letters = c :: rest ∧ Switch.ofLetter? c = some switch := by
  -- Each constructor begins with the letter of a switch.
  cases said with
  | nothing => exact absurd rfl written
  | verbose rest => exact ⟨_, _, .flag .verbose, rfl, rfl⟩
  | attached named _ _ => exact ⟨_, _, _, rfl, ofLetter?_eq_setting_iff.mpr named⟩
  | equals named value => exact ⟨_, _, _, rfl, ofLetter?_eq_setting_iff.mpr named⟩

/-- Flags in front of the letter of a setting begin with a letter that is known, too. -/
theorem known_of_flags {s : Setting} {c : Char} (named : s.letter? = some c) (flags : Nat) :
    ∃ first rest switch, List.replicate flags 'v' ++ [c] = first :: rest ∧
      Switch.ofLetter? first = some switch := by
  -- Either there are no flags in front and the letter of the setting comes first, or that of the
  -- flag does.
  cases flags with
  | zero => exact ⟨_, _, _, rfl, ofLetter?_eq_setting_iff.mpr named⟩
  | succ n => exact ⟨_, _, .flag .verbose, rfl, rfl⟩

section Finish

variable {r : Reading} {words : List String} {args : List Argument}

/-- What counts of a reading once there are no more words. -/
def said (r : Reading) : List (Setting × String) × Bool :=
  -- Where the reading stands does not matter any more.
  (r.given, r.verbose)

/-- A word is read before those behind it. -/
theorem finish_cons (r : Reading) (word : String) (words : List String) :
    r.finish (word :: words) = r.step word >>= fun r => r.finish words := by
  -- `finish` folds over the words and settles the reading at the end.
  rw [finish, List.foldlM_cons, bind_assoc]
  rfl

/-- Behind two dashes, a reading is settled. -/
theorem finish_dashes (open' : r.trailing = false) :
    r.finish ["--"] = settle { r with trailing := true } := by
  -- Nothing but the closed reading is left to settle.
  rw [finish_cons, step_dashes open']
  rfl

/-- Words that say something are read alike by a reading and by what that is once it is settled. -/
theorem finish_settle (spelled : Spells words args) (open' : r.trailing = false)
    (filled : ∀ s, r.pending ≠ some (s, none)) :
    (r.settle >>= fun r => r.finish words) = r.finish words := by
  -- Where the first word settles the reading, so do all of them.
  have first : ∀ {word rest} {read : Reading → Except Stop Reading},
      (∀ r : Reading, r.trailing = false → r.step word = read r) →
      (∀ r, (r.settle >>= read) = read r) →
      (r.settle >>= fun r => r.finish (word :: rest)) = r.finish (word :: rest) := by
    intro word rest read reads settles
    simp only [finish_cons]
    rw [← bind_assoc, settle_step reads settles open']
  cases spelled with
  | nothing => exact settle_settle r
  | dashes =>
    -- Being told that there are no more switches does not change what is waited for.
    rw [finish_dashes open']
    obtain ⟨given, verbose, pending, trailing⟩ := r
    cases open'
    match pending with
    | none => rfl
    | some (s, none) => exact absurd rfl (filled s)
    | some (s, some value) =>
      simp only [settle, record]
      split <;> rfl
  | verbose rest => exact first (fun _ => step_verbose) fun r => raise_settle r .verbose
  | named s fits rest => exact first (fun _ free => step_named free s) fun r => take_settle r s none
  | equals s value rest =>
    exact first (fun _ free => step_equals free s value) fun r => take_settle r s _
  | letters written said rest =>
    obtain ⟨c, more, switch, rfl, known⟩ := known_of_letters said written
    exact first (fun _ free => step_letters free known more) fun r => short_settle r known more
  | lettered flags named fits rest =>
    obtain ⟨c, more, switch, same, known⟩ := known_of_flags named flags
    rw [same]
    exact first (fun _ free => step_letters free known more) fun r => short_settle r known more

/-- A value in the next word is given to the setting that waits for it. -/
theorem finish_take {s : Setting} {value : String} (settled : r.Settled) (fits : IsValue value)
    (spelled : Spells words args) : (r.take s none >>= fun r => r.finish (value :: words)) =
      r.give (.setting s value) >>= fun r => r.finish words := by
  obtain ⟨given, verbose, pending, trailing⟩ := r
  obtain ⟨rfl, rfl⟩ : trailing = false ∧ pending = none := settled
  -- The value waits until it is clear that nothing more belongs to its setting.
  have taken : Reading.step ⟨given, verbose, some (s, none), false⟩ value =
      .ok ⟨given, verbose, some (s, some value), false⟩ := step_value rfl fits
  change Reading.finish ⟨given, verbose, some (s, none), false⟩ (value :: words) = _
  rw [finish_cons, taken, ok_bind, ← finish_settle spelled rfl (by simp)]
  rfl

/-- What comes behind a first part counts for the same if it does after every reading of that part.
-/
theorem said_bind {x : Except Stop Reading} {f g : Reading → Except Stop Reading}
    (same : ∀ r, x = .ok r → (f r).map said = (g r).map said) :
    (x >>= f).map said = (x >>= g).map said := by
  -- An error of the first part is the answer on both sides.
  cases x with
  | error e => rfl
  | ok r => exact same r rfl

/-- What the words say is what counts once they have been read. -/
theorem finish_spelled (spelled : Spells words args) (settled : r.Settled) :
    (r.finish words).map said = (args.foldlM give r).map said := by
  -- The induction is on what the words say; each of them is read by a settled reading.
  induction spelled generalizing r with
  | nothing => exact congrArg (Except.map said) (settle_eq_self settled.2)
  | dashes =>
    have last : settle { r with trailing := true } = .ok { r with trailing := true } :=
      settle_eq_self settled.2
    rw [finish_dashes settled.1, last]
    rfl
  | verbose rest ih =>
    rw [finish_cons, step_verbose settled.1, raise_verbose settled.2, List.foldlM_cons]
    exact said_bind fun r₁ raised => ih (settled_of_give settled raised)
  | named s fits rest ih =>
    rw [finish_cons, step_named settled.1, finish_take settled fits rest, List.foldlM_cons]
    exact said_bind fun r₁ given => ih (settled_of_give settled given)
  | equals s value rest ih =>
    rw [finish_cons, step_equals settled.1, take_some settled.2, List.foldlM_cons]
    exact said_bind fun r₁ given => ih (settled_of_give settled given)
  | letters written said rest ih =>
    obtain ⟨c, more, switch, rfl, known⟩ := known_of_letters said written
    rw [finish_cons, step_letters settled.1 known, short_spelled said settled, List.foldlM_append]
    exact said_bind fun r₁ given => ih (settled_of_foldlM settled given)
  | lettered flags named fits rest ih =>
    obtain ⟨c, more, switch, same, known⟩ := known_of_flags named flags
    rw [finish_cons, same, step_letters settled.1 known, ← same, short_flags settled, bind_assoc,
      List.foldlM_append]
    refine said_bind fun r₁ flagged => ?_
    have settled := settled_of_foldlM settled flagged
    have known := ofLetter?_eq_setting_iff.mpr named
    rw [short_apart _ known, finish_take settled fits rest, List.foldlM_cons]
    exact said_bind fun r₂ given => ih (settled_of_give settled given)

end Finish

end Reading

end BuildGraph.CommandLine
