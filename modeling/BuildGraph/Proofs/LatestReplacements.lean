import BuildGraph.Proofs.Replacements

/-! A ledger is a map from targets to what was noted for them last: whatever notes are taken, and in
whatever order, there is one replacement for each target that was replaced, and it is the latest. -/

namespace BuildGraph

/-- Something that is noted in a ledger. -/
inductive Note where
  -- Both kinds of notes come in any order.
  | replacement (r : Replacement)
  | selection (ids : List TargetId)
deriving DecidableEq, Inhabited, Repr

namespace Note

/-- The replacement of a target that a note holds, if it holds one. -/
def replacementOf? (id : TargetId) : Note → Option Replacement
  -- Targets are told apart by their identities, whatever the spelling.
  | replacement r => if r.target.identity = id.identity then some r else none
  | selection _ => none

/-- A note holds a replacement of a target when it is a replacement whose target nothing tells
apart from it. -/
theorem replacementOf?_eq_some_iff {id : TargetId} {note : Note} {r : Replacement} :
    note.replacementOf? id = some r ↔ note = .replacement r ∧ r.target.identity = id.identity := by
  -- A selection replaces nothing, and a replacement holds itself if its target is meant.
  cases note with
  | replacement noted =>
    simp only [replacementOf?, Option.ite_none_right_eq_some, Option.some.injEq, replacement.injEq]
    constructor
    · rintro ⟨same, rfl⟩
      exact ⟨rfl, same⟩
    · rintro ⟨rfl, same⟩
      exact ⟨same, rfl⟩
  | selection ids => simp [replacementOf?]

/-- Among several notes, a replacement is the last one of a target: no later note replaces that
target again. -/
def Last (notes : List Note) (id : TargetId) (r : Replacement) : Prop :=
  -- Later notes about other targets do not matter, and neither do selections.
  ∃ before after, notes = before ++ .replacement r :: after ∧ r.target.identity = id.identity ∧
    ∀ later, .replacement later ∈ after → later.target.identity ≠ id.identity

/-- The last replacement of a target among several notes. -/
def last? (id : TargetId) : List Note → Option Replacement
  -- The rest is looked at first, since later notes win.
  | [] => none
  | note :: rest => (last? id rest).or (note.replacementOf? id)

/-- There is no last replacement of a target exactly when no note replaces it. -/
theorem last?_eq_none_iff {id : TargetId} {notes : List Note} : last? id notes = none ↔
    ∀ r, .replacement r ∈ notes → r.target.identity ≠ id.identity := by
  -- The induction is on the notes; none of them may hold a replacement of the target.
  induction notes with
  | nil => simp [last?]
  | cons note rest ih =>
    rw [last?, Option.or_eq_none_iff, ih, and_comm]
    cases note <;> simp [replacementOf?]

/-- What is found as the last replacement of a target is the last one. -/
theorem last?_eq_some_iff {id : TargetId} {notes : List Note} {r : Replacement} :
    last? id notes = some r ↔ Last notes id r := by
  induction notes with
  | nil => simp [last?, Last]
  | cons note rest ih =>
    rw [last?, Option.or_eq_some_iff, ih, last?_eq_none_iff, replacementOf?_eq_some_iff]
    constructor
    · rintro (⟨before, after, rfl, same, done⟩ | ⟨done, rfl, same⟩)
      · exact ⟨note :: before, after, rfl, same, done⟩
      · exact ⟨[], rest, rfl, same, done⟩
    · rintro ⟨_ | ⟨first, before⟩, after, split, same, done⟩
      · -- The first note is the one in question, and nothing behind it is of the target.
        obtain ⟨rfl, rfl⟩ := List.cons.inj split
        exact .inr ⟨done, rfl, same⟩
      · obtain ⟨_, rfl⟩ := List.cons.inj split
        exact .inl ⟨before, after, rfl, same, done⟩

end Note

namespace Ledger

variable {l : Ledger}

/-- The ledger with one more note. -/
def note (l : Ledger) : Note → Ledger
  -- A replacement takes the place of one with the same target, and a selection takes none.
  | .replacement r => l.recordReplacement r
  | .selection ids => l.recordRequested ids

/-- What was noted for a target is what the new note holds for it, and otherwise what was noted
before. -/
theorem replacementFor?_note (l : Ledger) (note : Note) (id : TargetId) :
    (l.note note).replacementFor? id = (note.replacementOf? id).or (l.replacementFor? id) := by
  -- A selection leaves the replacements alone.
  cases note with
  | replacement r =>
    rw [Ledger.note, replacementFor?_recordReplacement, Note.replacementOf?]
    split <;> rfl
  | selection ids => rfl

/-- What was noted for a target after several notes is the last that these hold for it, and
otherwise what was noted before them. -/
theorem replacementFor?_notes (l : Ledger) (notes : List Note) (id : TargetId) :
    (notes.foldl note l).replacementFor? id = (Note.last? id notes).or (l.replacementFor? id) := by
  -- A later note takes the place of an earlier one.
  induction notes generalizing l with
  | nil => rfl
  | cons first rest ih =>
    rw [List.foldl_cons, ih, replacementFor?_note, Note.last?, Option.or_assoc]

namespace Filed

/-- One more note keeps a ledger filed as it should be. -/
theorem note (filed : l.Filed) : ∀ note : Note, (l.note note).Filed
  -- A selection does not touch the replacements.
  | .replacement r => filed.recordReplacement r
  | .selection _ => ⟨filed.names, filed.distinct⟩

/-- Several notes keep a ledger filed as it should be. -/
theorem notes (filed : l.Filed) (notes : List Note) : (notes.foldl Ledger.note l).Filed := by
  -- The induction is on the notes, each of which is one more.
  induction notes generalizing l with
  | nil => exact filed
  | cons first rest ih => exact ih (filed.note first)

/-- In a ledger that is filed as it should be, the replacements are those that are found for their
targets. -/
theorem mem_records_iff (filed : l.Filed) {r : Replacement} :
    r ∈ l.records ↔ l.replacementFor? r.target = some r := by
  rw [mem_records]
  constructor
  · rintro ⟨name, held, stored, given⟩
    obtain rfl := filed.names name held stored r given
    -- Whatever is found first has the target of this one, and no other has.
    have own : (r.target == r.target) = true := TargetId.beq_iff.mpr rfl
    have there : (held.find? fun r' => r'.target == r.target).isSome = true :=
      List.find?_isSome.mpr ⟨r, given, own⟩
    obtain ⟨first, found⟩ := Option.isSome_iff_exists.mp there
    have same : first.target.identity = r.target.identity := by
      simpa only [TargetId.beq_iff] using List.find?_some found
    have only : first = r := List.inj_on_of_nodup_map (filed.distinct _ held stored)
      (List.mem_of_find?_eq_some found) given same
    simp only [replacementFor?, stored, Option.bind_eq_bind, Option.bind_some, found, only]
  · intro found
    obtain ⟨held, stored, first⟩ := Option.bind_eq_some_iff.mp found
    exact ⟨r.target.name, held, stored, List.mem_of_find?_eq_some first⟩

end Filed

/-- The ledger with these notes and no others. -/
def noted (notes : List Note) : Ledger :=
  -- The notes are made in order, on an empty ledger.
  notes.foldl note {}

/-- The notes of an empty ledger are filed as they should be. -/
theorem filed_noted (notes : List Note) : (noted notes).Filed :=
  -- An empty ledger has nothing that could be filed wrongly.
  (filed_of_records_eq_nil rfl).notes notes

/-- What is found for a target is the last of the notes that replaces it. -/
theorem replacementFor?_noted {notes : List Note} {id : TargetId} {r : Replacement} :
    (noted notes).replacementFor? id = some r ↔ Note.Last notes id r := by
  -- Nothing is found in an empty ledger, so that all that is found comes from the notes.
  have before : ({} : Ledger).replacementFor? id = none := rfl
  rw [noted, replacementFor?_notes, before, Option.or_none, Note.last?_eq_some_iff]

/-- A ledger is a map from targets to their latest replacements. In every ledger, noting a
replacement changes what is found for its target and nothing else, and leaves alone what was asked
for. And whatever is noted in an empty ledger, every replacement is filed under the name of its
target, no target has two, what is found for a target is the last that was noted for it, and
nothing else is held. -/
theorem latest_replacements :
    (∀ (l : Ledger) (r : Replacement), (l.recordReplacement r).requested = l.requested ∧
      ∀ id, (l.recordReplacement r).replacementFor? id =
        if r.target.identity = id.identity then some r else l.replacementFor? id) ∧
    ∀ notes : List Note,
      (∀ filed ∈ (noted notes).replacements.entries, ∀ r ∈ filed.2, r.target.name = filed.1) ∧
      ((noted notes).records.map fun r => r.target.identity).Nodup ∧
      (∀ id r, (noted notes).replacementFor? id = some r ↔ Note.Last notes id r) ∧
      ∀ r, r ∈ (noted notes).records ↔ Note.Last notes r.target r := by
  -- The ledger is filed as it should be at every time, so that look-ups find what is recorded.
  refine ⟨fun l r => ⟨rfl, replacementFor?_recordReplacement l r⟩, fun notes => ?_⟩
  have filed := filed_noted notes
  refine ⟨fun stored member r given => ?_, filed.nodup_records,
    fun _ _ => replacementFor?_noted, fun r => ?_⟩
  · exact filed.names _ _ (SortedMap.mem_entries_iff.mp member) r given
  · rw [filed.mem_records_iff, replacementFor?_noted]

end Ledger

namespace Sample

/-- A library and its artefact. -/
def firstCopy : Replacement :=
  ⟨⟨⟨"/A"⟩, "Core"⟩, ⟨⟨"/old/Core"⟩, .framework, .dynamic⟩⟩

/-- A library of the same name in another project. -/
def namesake : Replacement :=
  ⟨⟨⟨"/B"⟩, "Core"⟩, ⟨⟨"/old/Core"⟩, .library, .static⟩⟩

/-- The first library again, with its path spelled in another way, and a later artefact. -/
def secondCopy : Replacement :=
  ⟨⟨⟨"/A/."⟩, "Core"⟩, ⟨⟨"/new/Core"⟩, .framework, .dynamic⟩⟩

/-- Notes of both libraries, and of the first one again. -/
def notes : List Note :=
  -- The name is shared, one path is spelled twice, and a selection stands in between.
  [.replacement firstCopy, .replacement namesake, .selection [namesake.target],
    .replacement secondCopy]

end Sample

/-- The library that is noted again has the later artefact, and its namesake keeps its own. -/
theorem Ledger.latest_replacements_of_sample :
    (noted Sample.notes).replacements.entries =
        [("Core", [Sample.namesake, Sample.secondCopy])] ∧
      (∀ r ∈ [Sample.namesake, Sample.secondCopy], r.target.name = "Core") ∧
      Sample.firstCopy.target.identity = Sample.secondCopy.target.identity ∧
      (noted Sample.notes).replacementFor? Sample.firstCopy.target = some Sample.secondCopy ∧
      (noted Sample.notes).replacementFor? Sample.namesake.target = some Sample.namesake := by
  have stored : (noted Sample.notes).replacements.entries =
      [("Core", [Sample.namesake, Sample.secondCopy])] := by decide
  obtain ⟨named, _, found, _⟩ := latest_replacements.2 Sample.notes
  refine ⟨stored, named ("Core", _) (by rw [stored]; exact .head _), by decide, ?_, ?_⟩
  · exact (found _ _).mpr ⟨Sample.notes.dropLast, [], rfl, by decide, by simp⟩
  · -- The only replacement behind it is of the other library.
    refine (found _ _).mpr ⟨Sample.notes.take 1, Sample.notes.drop 2, rfl, rfl, fun r member => ?_⟩
    obtain rfl : r = Sample.secondCopy := by simpa [Sample.notes] using member
    decide

end BuildGraph
