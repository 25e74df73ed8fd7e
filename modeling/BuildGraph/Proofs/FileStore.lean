import BuildGraph.FileStore
import BuildGraph.Proofs.Collections
import BuildGraph.Proofs.Matching

/-! A write changes the one file that its path leads to: the text can be read there, and whatever
else can be read is what it was. -/

namespace BuildGraph

/-- A text is read back from its bytes. -/
theorem FileNode.text_file (text : String) : (file text.toUTF8).text = .ok text := by
  -- The bytes of a text are valid, and decode to what they are the bytes of.
  have valid : text.toUTF8.IsValidUTF8 := text.isValidUTF8
  have decoded : String.fromUTF8? text.toUTF8 = some text := dif_pos valid
  simp only [FileNode.text, decoded]

namespace FileStore

/-- Two stores differ in one place only: where there was a file or nothing, there is a file with a
text. What goes wrong goes wrong in both. -/
structure Rewritten (s s' : FileStore) (place : Place) (text : String) : Prop where
  -- The directories are the same in both, so every way leads to the same place.
  here : s'.here = s.here
  faults : s'.faults = s.faults
  free : s.node? place = none ∨ ∃ bytes, s.node? place = some (.file bytes)
  held : s'.node? place = some (.file text.toUTF8)
  others : ∀ other, other ≠ place → s'.node? other = s.node? other

variable {s s' : FileStore} {p : Path} {place : Place} {text : String}

/-- What is put anywhere but at the root is there, and nothing else changes. -/
theorem node?_put {node : FileNode} {other : Place} (inside : place ≠ []) :
    (s.put place node).node? other = if other = place then some node else s.node? other := by
  simp only [node?, put, DeclaredMap.get?_insert]
  -- The root is not looked up.
  by_cases root : other = []
  · simp [root, inside.symm]
  · simp [root]

/-- Something may be asked of a place if nothing goes wrong there. -/
theorem permit_eq_ok_iff {access : Access} {done : Unit} :
    s.permit access place = .ok done ↔ s.faults access place = none := by
  rw [permit]
  -- There is only one way to be permitted.
  cases s.faults access place <;> simp

/-- A walk along two ways is the walk along the first, and from where that ends along the other. -/
theorem walk_append (start : Place) (front back : List String) :
    s.walk start (front ++ back) = (do s.walk (← s.walk start front) back) := by
  -- The induction is on the first way; what stops a step on it stops both walks.
  induction front generalizing start with
  | nil => rfl
  | cons piece rest ih =>
    rw [List.cons_append, walk, walk]
    split
    · rfl
    · rw [bind_assoc]
      refine bind_congr fun _ => ?_
      -- A name leads on unless it is too long, and other pieces always do.
      split
      · split
        · rfl
        · exact ih _
      · exact ih _
      · exact ih _
    · rfl

/-- A path leads to a node if it leads to a place that has it. -/
theorem locate_eq_ok_iff {node : FileNode} :
    s.locate p = .ok (place, node) ↔ s.reach p = .ok place ∧ s.node? place = some node := by
  -- What is found at the place is what the node is.
  rw [locate, bind_eq_ok_iff]
  constructor
  · rintro ⟨_, reached, found⟩
    split at found
    · cases found
    · rename_i held
      cases found
      exact ⟨reached, held⟩
  · rintro ⟨reached, held⟩
    exact ⟨place, reached, by rw [held]⟩

/-- A path is read if it leads to a place with a text that may be read. -/
theorem read_eq_ok_iff : s.read p = .ok text ↔
    ∃ place node, s.reach p = .ok place ∧ s.node? place = some node ∧
      s.faults .read place = none ∧ node.text = .ok text := by
  -- Reading takes its steps one after another, and each of them can fail.
  simp only [read, bind_eq_ok_iff, Prod.exists, locate_eq_ok_iff, permit_eq_ok_iff, exists_const,
    and_assoc]

/-- The last piece of a path counts unless it is empty. -/
theorem pieces_of_last {last : String} {front : List String}
    (named : p.pieces.reverse.dropWhile (· = "") = last :: front)
    (proper : p.pieces.getLast? ≠ some "") :
    p.pieces = front.reverse ++ [last] ∧ last ≠ "" := by
  -- Nothing is dropped from the end, since what stands there is not empty.
  rw [List.getLast?_eq_head?_reverse] at proper
  cases backwards : p.pieces.reverse with
  | nil => simp [backwards] at named
  | cons piece rest =>
    have kept : piece ≠ "" := by
      rintro rfl
      exact proper (by rw [backwards]; rfl)
    rw [backwards, List.dropWhile_cons_of_neg (by simpa using kept)] at named
    cases named
    refine ⟨?_, kept⟩
    rw [← List.reverse_reverse p.pieces, backwards, List.reverse_cons]

/-- A path that is given to a file ends in the name of the file, and leads to a directory before
that, which may be entered. -/
theorem destination_eq_ok (found : s.destination p = .ok place) :
    ∃ front last parent, check p = .ok () ∧ p.pieces = front ++ [last] ∧
      s.walk (s.start p) front = .ok parent ∧ s.node? parent = some .directory ∧
      s.lookIn parent last = .ok () ∧ Component.ofPiece last = some (.named last) ∧
      last.utf8ByteSize ≤ nameLimit ∧ place = last :: parent := by
  rw [destination, bind_eq_ok_iff] at found
  obtain ⟨_, checked, found⟩ := found
  split at found
  · cases found
  · rename_i last back named
    rw [bind_eq_ok_iff] at found
    obtain ⟨parent, reached, found⟩ := found
    -- What is not refused is a name in a directory.
    split at found
    · cases found
    · rename_i inside
      rw [bind_eq_ok_iff] at found
      obtain ⟨_, entered, found⟩ := found
      split at found
      · cases found
      · rename_i proper
        split at found
        · cases found
        · rename_i short
          rw [not_or, not_or] at proper
          obtain ⟨pieces, filled⟩ := pieces_of_last named proper.2.2
          refine ⟨back.reverse, last, parent, checked, pieces, reached, inside,
            entered, ?_, Nat.le_of_not_lt short, ?_⟩
          · simp [Component.ofPiece, filled, proper.1, proper.2.1]
          · exact (Except.ok.inj found).symm
    · cases found

/-- A path leads to the place at which it wants a file to be. -/
theorem reach_of_destination (found : s.destination p = .ok place) : s.reach p = .ok place := by
  -- The last piece is a name, so that the walk ends one step beyond the directory.
  obtain ⟨front, last, parent, checked, pieces, reached, inside, entered, named, short, rfl⟩ :=
    destination_eq_ok found
  rw [reach, checked, pieces, walk_append, reached]
  simp [walk, inside, entered, named, Nat.not_lt.mpr short]

namespace Rewritten

variable (rewritten : Rewritten s s' place text)

include rewritten

/-- The same may be looked for in both stores. -/
theorem lookIn_eq (other : Place) (piece : String) :
    s'.lookIn other piece = s.lookIn other piece := by
  -- What goes wrong is the same in both stores.
  simp only [lookIn, permit, rewritten.faults]

/-- The same paths lead to the same places, since what is new is the end of a way in both stores. -/
theorem walk_eq_ok {start reached : Place} {pieces : List String} :
    s'.walk start pieces = .ok reached ↔ s.walk start pieces = .ok reached := by
  -- The induction is on the pieces; neither store has a way on from where there is no directory.
  induction pieces generalizing start with
  | nil => exact Iff.rfl
  | cons piece rest ih =>
    rw [walk, walk]
    by_cases there : start = place
    · rw [there, rewritten.held]
      rcases rewritten.free with absent | ⟨bytes, filed⟩
      · simp [absent]
      · simp [filed]
    · rw [rewritten.others start there]
      split
      · exact Iff.rfl
      · simp only [rewritten.lookIn_eq, bind_eq_ok_iff]
        refine exists_congr fun _ => and_congr_right fun _ => ?_
        split
        · split
          · exact Iff.rfl
          · exact ih
        · exact ih
        · exact ih
      · exact Iff.rfl

/-- A path leads to a place after a change if it did before. -/
theorem reach_eq_ok {reached : Place} : s'.reach p = .ok reached ↔ s.reach p = .ok reached := by
  -- Both stores check a path alike, and start from the same place.
  have start : s'.start p = s.start p := by rw [FileStore.start, rewritten.here]; rfl
  rw [reach, reach, start]
  cases check p with
  | error e => exact Iff.rfl
  | ok _ => exact rewritten.walk_eq_ok

/-- The text is read by every path that leads to the file, unless it may not be read. -/
theorem read_there (leads : s.reach p = .ok place) (readable : s.faults .read place = none) :
    s'.read p = .ok text :=
  -- The file is at the end of the way, and nothing is in the way of reading it.
  read_eq_ok_iff.mpr ⟨place, _, rewritten.reach_eq_ok.mpr leads, rewritten.held,
    by rw [rewritten.faults, readable], FileNode.text_file text⟩

/-- What is read by any other path is what was read before. -/
theorem read_elsewhere {read : String} (away : s.reach p ≠ .ok place) :
    s'.read p = .ok read ↔ s.read p = .ok read := by
  -- The path leads to a place that has not changed, with what it had.
  rw [read_eq_ok_iff, read_eq_ok_iff]
  refine exists_congr fun other => exists_congr fun node => ?_
  rw [rewritten.reach_eq_ok, rewritten.faults]
  refine and_congr_right fun leads => ?_
  rw [rewritten.others other fun same => away (same ▸ leads)]

end Rewritten

/-- A file is put where a file or nothing was. -/
theorem rewritten_put (inside : place ≠ [])
    (free : s.node? place = none ∨ ∃ bytes, s.node? place = some (.file bytes)) :
    Rewritten s (s.put place (.file text.toUTF8)) place text where
  -- Only the place itself is looked up differently.
  here := rfl
  faults := rfl
  free := free
  held := by simp [node?_put inside]
  others other away := by simp [node?_put inside, away]

/-- A text is put where its path wants a file to be, unless that place swallows it. -/
theorem write_eq_ok (written : s.write p text = .ok s') : ∃ place, s.destination p = .ok place ∧
    (s.node? place = some .sink ∧ s' = s ∨ Rewritten s s' place text) := by
  rw [write, bind_eq_ok_iff] at written
  obtain ⟨place, found, written⟩ := written
  -- A place with a name is not the root.
  obtain ⟨_, last, parent, _, _, _, _, _, _, _, rfl⟩ := destination_eq_ok found
  have inside : last :: parent ≠ [] := List.cons_ne_nil _ _
  refine ⟨_, found, ?_⟩
  split at written
  · cases written
  · rename_i swallows
    obtain ⟨_, _, written⟩ := bind_eq_ok_iff.mp written
    exact .inl ⟨swallows, (Except.ok.inj written).symm⟩
  · rename_i bytes filed
    obtain ⟨_, _, written⟩ := bind_eq_ok_iff.mp written
    cases written
    exact .inr (rewritten_put inside (.inr ⟨bytes, filed⟩))
  · rename_i absent
    obtain ⟨_, _, written⟩ := bind_eq_ok_iff.mp written
    cases written
    exact .inr (rewritten_put inside (.inl absent))

end FileStore

end BuildGraph
