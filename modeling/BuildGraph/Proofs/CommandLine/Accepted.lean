import Mathlib.Data.List.TakeDrop
import BuildGraph.Proofs.CommandLine.Grammar

/-! Words that are read without an error say something. -/

namespace BuildGraph.CommandLine.Reading

/-- The name that a setting is known by is its own. -/
theorem eq_longName_of_ofName? {name : String} {s : Setting}
    (known : Switch.ofName? name = some (.setting s)) : name = s.longName := by
  -- One case for each name that is known.
  unfold Switch.ofName? at known
  split at known <;> cases known <;> rfl

/-- The flag that can be raised is known by its own name. -/
theorem eq_verbose_of_ofName? {name : String}
    (known : Switch.ofName? name = some (.flag .verbose)) : name = "verbose" := by
  -- One case for each name that is known.
  unfold Switch.ofName? at known
  split at known <;> cases known
  rfl

/-- The flag that can be raised is known by one letter. -/
theorem eq_v_of_ofLetter? {c : Char} (known : Switch.ofLetter? c = some (.flag .verbose)) :
    c = 'v' := by
  -- One case for each letter that is known.
  unfold Switch.ofLetter? at known
  split at known <;> cases known
  rfl

section Advances

variable {r r' : Reading}

/-- Whoever raises a flag has settled the reading and goes on, which only one flag allows. -/
theorem raise_eq_ok {f : Flag} (raised : r.raise f = .ok r') : f = .verbose ∧
    (∃ r₀, r.settle = .ok r₀) ∧ r'.pending = none ∧ r'.trailing = r.trailing := by
  -- The other two flags stop the reading with a text to be printed.
  obtain ⟨r₀, settled, raised⟩ := bind_eq_ok_iff.mp raised
  obtain ⟨none, open'⟩ := settled_of_settle settled
  cases f with
  | help => cases raised
  | version => cases raised
  | verbose =>
    dsimp only at raised
    split at raised
    · cases raised
    · cases raised
      exact ⟨rfl, ⟨r₀, settled⟩, none, open'⟩

/-- A setting that is named has settled the reading, and waits for its value unless it has it. -/
theorem take_eq_ok {s : Setting} {value : Option String} (taken : r.take s value = .ok r') :
    (∃ r₀, r.settle = .ok r₀) ∧ r'.trailing = r.trailing ∧
      r'.pending = if value.isSome then none else some (s, none) := by
  -- With a value it is recorded; without one the setting becomes what is being waited for.
  obtain ⟨r₀, settled, taken⟩ := bind_eq_ok_iff.mp taken
  obtain ⟨none, open'⟩ := settled_of_settle settled
  cases value with
  | none =>
    cases taken
    exact ⟨⟨r₀, settled⟩, open', rfl⟩
  | some value =>
    rw [record_eq_ok taken]
    exact ⟨⟨r₀, settled⟩, open', none⟩

/-- What a word can be to a reading that goes on behind it. -/
inductive Advances (r : Reading) (word : String) (r' : Reading) : Prop where
  -- A word is read in one of four ways, and each tells what may come behind it.
  | dashes (same : word = "--") (read : r' = { r with trailing := true })
  | value (fits : IsValue word) (read : r.value word = .ok r')
  /-- The word says something on its own. -/
  | whole (before : ∃ r₀, r.settle = .ok r₀) (settled : r'.Settled)
    (told : ∀ {words args}, Spells words args → ∃ more, Spells (word :: words) more)
  /-- The word says something with the value that comes next. -/
  | half (before : ∃ r₀, r.settle = .ok r₀) (open' : r'.trailing = false)
    (waits : ∃ s, r'.pending = some (s, none))
    (told : ∀ {value words args}, IsValue value → Spells words args →
      ∃ more, Spells (word :: value :: words) more)

/-- A long name ends in front of the first equals sign, if it has one. -/
theorem span_name (name : List Char) :
    name.span (fun c => decide (c ≠ '=')) = (name, []) ∨
      ∃ front value, name = front ++ '=' :: value ∧
        name.span (fun c => decide (c ≠ '=')) = (front, '=' :: value) := by
  rw [List.span_eq_takeWhile_dropWhile]
  -- What is left begins with the sign that the name stops at.
  have parted := List.takeWhile_append_dropWhile (p := fun c => decide (c ≠ '=')) (l := name)
  have sign := List.head?_dropWhile_not (fun c => decide (c ≠ '=')) name
  generalize name.dropWhile (fun c => decide (c ≠ '=')) = back at parted sign
  cases back with
  | nil =>
    rw [List.append_nil] at parted
    exact .inl (by rw [parted])
  | cons c value =>
    obtain rfl : c = '=' := by simpa using sign
    exact .inr ⟨_, value, parted.symm, rfl⟩

/-- A long name that is read is that of the flag, or that of a setting, which may have its value
behind an equals sign. -/
theorem long_eq_ok {name : List Char} (read : r.long name = .ok r') :
    (name = "verbose".toList ∧ r.raise .verbose = .ok r') ∨
      (∃ s : Setting, name = s.longName.toList ∧ r.take s none = .ok r') ∨
      ∃ (s : Setting) (value : List Char), name = s.longName.toList ++ '=' :: value ∧
        r.take s (some (String.ofList value)) = .ok r' := by
  rcases span_name name with alone | ⟨front, value, rfl, parted⟩
  · simp only [long, alone] at read
    cases known : Switch.ofName? (String.ofList name) with
    | none => simp [known] at read
    | some switch =>
      cases switch with
      | setting s =>
        refine .inr (.inl ⟨s, ?_, by simpa [known] using read⟩)
        rw [← eq_longName_of_ofName? known, String.toList_ofList]
      | flag f =>
        -- Of the flags, only one can be raised.
        have raised : r.raise f = .ok r' := by simpa [known] using read
        obtain rfl := (raise_eq_ok raised).1
        exact .inl ⟨by rw [← eq_verbose_of_ofName? known, String.toList_ofList], raised⟩
  · simp only [long, parted] at read
    cases known : Switch.ofName? (String.ofList front) with
    | none => simp [known] at read
    | some switch =>
      cases switch with
      | setting s =>
        refine .inr (.inr ⟨s, value, ?_, by simpa [known] using read⟩)
        rw [← eq_longName_of_ofName? known, String.toList_ofList]
      | flag f => simp [known] at read

/-- A word with a long name that is read says something on its own, or with the value that comes
next. -/
theorem advances_long {name : List Char} (open' : r.trailing = false)
    (read : r.long name = .ok r') : Advances r ("--" ++ String.ofList name) r' := by
  -- Each of the three names has a rule.
  rcases long_eq_ok read with ⟨rfl, raised⟩ | ⟨s, rfl, taken⟩ | ⟨s, value, rfl, taken⟩
  · obtain ⟨_, before, none, same⟩ := raise_eq_ok raised
    exact .whole before ⟨same.trans open', none⟩ fun rest => ⟨_, .verbose rest⟩
  · obtain ⟨before, same, waits⟩ := take_eq_ok taken
    rw [String.ofList_toList]
    exact .half before (same.trans open') ⟨s, waits⟩ fun fits rest => ⟨_, .named s fits rest⟩
  · obtain ⟨before, same, none⟩ := take_eq_ok taken
    have spelled : "--" ++ String.ofList (s.longName.toList ++ '=' :: value) =
        "--" ++ s.longName ++ "=" ++ String.ofList value := by
      apply String.toList_injective
      simp [String.toList_append]
    rw [spelled]
    exact .whole before ⟨same.trans open', none⟩ fun rest => ⟨_, .equals s _ rest⟩

/-- Letters that are read are those of flags, and at their end perhaps that of a setting, which has
its value behind it or waits for it. -/
theorem short_eq_ok {letters : List Char} (read : r.short letters = .ok r') :
    (letters = [] ∧ r' = r) ∨ (∃ r₀, r.settle = .ok r₀) ∧ r'.trailing = r.trailing ∧
      ((∃ here, Letters letters here) ∧ r'.pending = none ∨
        ∃ flags s c, Setting.letter? s = some c ∧ letters = List.replicate flags 'v' ++ [c] ∧
          r'.pending = some (s, none)) := by
  -- The induction is on the letters, each of which is looked up.
  induction letters generalizing r with
  | nil => exact .inl ⟨rfl, (Except.ok.inj read).symm⟩
  | cons c rest ih =>
    right
    cases known : Switch.ofLetter? c with
    | none => simp [short, known] at read
    | some switch =>
      cases switch with
      | flag f =>
        rw [short_flag _ known] at read
        obtain ⟨r₁, raised, others⟩ := bind_eq_ok_iff.mp read
        obtain ⟨rfl, before, none, open'⟩ := raise_eq_ok raised
        rw [eq_v_of_ofLetter? known]
        rcases ih others with ⟨empty, unchanged⟩ | ⟨_, same, ⟨⟨here, said⟩, none⟩ | half⟩
        · rw [empty, unchanged]
          exact ⟨before, open', .inl ⟨⟨_, .verbose .nothing⟩, none⟩⟩
        · exact ⟨before, same.trans open', .inl ⟨⟨_, .verbose said⟩, none⟩⟩
        · obtain ⟨flags, s, c, named, rfl, waits⟩ := half
          exact ⟨before, same.trans open', .inr ⟨flags + 1, s, c, named, rfl, waits⟩⟩
      | setting s =>
        obtain ⟨value, reads, ⟨rfl, rfl⟩ | ⟨v, rfl, said⟩⟩ := exists_short_setting known rest
        · rw [reads] at read
          obtain ⟨before, same, waits⟩ := take_eq_ok read
          have named := ofLetter?_eq_setting_iff.mp known
          exact ⟨before, same, .inr ⟨0, s, c, named, rfl, waits⟩⟩
        · rw [reads] at read
          obtain ⟨before, same, none⟩ := take_eq_ok read
          exact ⟨before, same, .inl ⟨⟨_, said⟩, none⟩⟩

/-- Letters that are read say something on their own, or with the value that comes next. -/
theorem advances_short {letters : List Char} (open' : r.trailing = false) (written : letters ≠ [])
    (read : r.short letters = .ok r') : Advances r ("-" ++ String.ofList letters) r' := by
  -- What the letters were read as gives the rule: all said, or a setting at the end that waits for
  -- the word behind.
  rcases short_eq_ok read with ⟨empty, _⟩ | ⟨before, same, ⟨⟨here, said⟩, none⟩ | half⟩
  · exact absurd empty written
  · exact .whole before ⟨same.trans open', none⟩ fun rest => ⟨_, .letters written said rest⟩
  · obtain ⟨flags, s, c, named, rfl, waits⟩ := half
    exact .half before (same.trans open') ⟨s, waits⟩ fun fits rest =>
      ⟨_, .lettered flags named fits rest⟩

/-- Every word that is read is one of these. -/
theorem advances_of_step {word : String} (open' : r.trailing = false)
    (read : r.step word = .ok r') : Advances r word r' := by
  -- Words are told apart by their first characters.
  rw [step, if_neg (by simp [open'])] at read
  split at read
  · rename_i spelled
    exact .dashes (String.toList_injective spelled) (Except.ok.inj read).symm
  · rename_i name _ spelled
    have same : word = "--" ++ String.ofList name := by
      apply String.toList_injective
      simp [String.toList_append, spelled]
    exact same ▸ advances_long open' read
  · rename_i letter rest _ _ spelled
    have same : word = "-" ++ String.ofList (letter :: rest) := by
      apply String.toList_injective
      simp [String.toList_append, spelled]
    exact same ▸ advances_short open' (List.cons_ne_nil _ _) read
  · rename_i bare
    refine .value ?_ read
    by_cases dashed : word.toList.head? = some '-'
    · obtain ⟨rest, spelled⟩ := List.head?_eq_some_iff.mp dashed
      cases rest with
      | nil => exact .inl (String.toList_injective spelled)
      | cons letter rest => exact absurd spelled (bare letter rest)
    · exact .inr dashed

/-- A reading with two dashes behind it has no more words. -/
theorem finish_trailing {words : List String} (closed : r.trailing = true)
    (read : r.finish words = .ok r') : words = [] := by
  -- After two dashes every word is an unexpected argument.
  cases words with
  | nil => rfl
  | cons word rest =>
    rw [finish_cons, step, if_pos closed] at read
    cases read

/-- What is waited for comes next, and it can be a value. -/
theorem value_of_finish {s : Setting} {words : List String} (open' : r.trailing = false)
    (waits : r.pending = some (s, none)) (read : r.finish words = .ok r') :
    ∃ value rest, words = value :: rest ∧ IsValue value ∧
      Reading.finish { r with pending := some (s, some value) } rest = .ok r' := by
  -- Whatever settles the reading before there is a value is refused.
  have unsettled : ∀ r₀, r.settle ≠ .ok r₀ := by
    intro r₀ settled
    rw [settle, waits] at settled
    cases settled
  cases words with
  | nil => exact absurd read (unsettled r')
  | cons word rest =>
    rw [finish_cons] at read
    obtain ⟨r₁, stepped, read⟩ := bind_eq_ok_iff.mp read
    cases advances_of_step open' stepped with
    | dashes same closed =>
      subst closed
      cases finish_trailing rfl read
      change settle { r with trailing := true } = .ok r' at read
      rw [settle, waits] at read
      cases read
    | value fits filled =>
      rw [Reading.value, waits] at filled
      cases filled
      exact ⟨word, rest, rfl, fits, read⟩
    | whole before => exact absurd before.choose_spec (unsettled _)
    | half before => exact absurd before.choose_spec (unsettled _)

/-- Words that are read say something. -/
theorem exists_spells {words : List String} {r : Reading} (open' : r.trailing = false)
    (filled : ∀ s, r.pending ≠ some (s, none)) (read : r.finish words = .ok r') :
    ∃ args, Spells words args := by
  -- The recursion is on the words; a setting that waits for its value takes two of them.
  match words with
  | [] => exact ⟨_, .nothing⟩
  | word :: rest =>
    rw [finish_cons] at read
    obtain ⟨r₁, stepped, read⟩ := bind_eq_ok_iff.mp read
    cases advances_of_step open' stepped with
    | dashes same closed =>
      subst same closed
      cases finish_trailing rfl read
      exact ⟨_, .dashes⟩
    | value fits filled' =>
      rw [Reading.value] at filled'
      split at filled'
      · rename_i s waits
        exact absurd waits (filled s)
      · cases filled'
    | whole before settled told =>
      obtain ⟨args, spelled⟩ := exists_spells settled.1 (by simp [settled.2]) read
      exact told spelled
    | half before open₁ waits told =>
      obtain ⟨s, waits⟩ := waits
      obtain ⟨value, more, rfl, fits, read⟩ := value_of_finish open₁ waits read
      obtain ⟨args, spelled⟩ := exists_spells (r := { r₁ with pending := some (s, some value) })
        open₁ (by simp) read
      exact told fits spelled
termination_by words.length

end Advances

end BuildGraph.CommandLine.Reading
