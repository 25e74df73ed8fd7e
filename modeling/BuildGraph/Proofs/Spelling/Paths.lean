import Mathlib.Data.String.Basic
import BuildGraph.Path

/-! Where a path leads to depends on the steps of its parts only, however these are spelled. -/

namespace BuildGraph

namespace Component

variable {piece : String}

/-- No piece stands for a place that paths start from. -/
theorem not_start_of_ofPiece {c : Component} (counts : ofPiece piece = some c) :
    c ≠ .root ∧ c ≠ .current := by
  -- Pieces that count are names or lead to the parent.
  unfold ofPiece at counts
  split at counts
  · cases counts
  · split at counts <;> cases counts <;> simp

/-- A piece that does not count is empty or a dot. -/
theorem ofPiece_eq_none_iff : ofPiece piece = none ↔ piece = "" ∨ piece = "." := by
  -- Every other piece is turned into a step.
  unfold ofPiece
  split
  · rename_i blank
    exact iff_of_true rfl blank
  · rename_i counts
    split <;> exact iff_of_false (by simp) counts

end Component

namespace Path

variable {p base base' next next' : Path}

/-- The components of a path behind the place that it starts from. -/
def steps (p : Path) : List Component :=
  -- The place that a path starts from is told by its beginning, apart from this.
  p.pieces.filterMap Component.ofPiece

/-- Every path has some piece, and be it an empty one. -/
theorem pieces_ne_nil : p.pieces ≠ [] := by
  -- Splitting never leaves nothing.
  simp [pieces, List.splitOn, List.splitOnP_ne_nil]

/-- A slash parts the pieces in front of it from those behind it. -/
theorem pieces_slash (front next : Path) :
    (⟨front.text ++ "/" ++ next.text⟩ : Path).pieces = front.pieces ++ next.pieces := by
  -- Splitting is done on the characters.
  have parted : (front.text.toList ++ '/' :: next.text.toList).splitOn '/' =
      front.text.toList.splitOn '/' ++ next.text.toList.splitOn '/' :=
    List.splitOnP_append_cons _ _ rfl
  simp only [pieces, ← List.map_append, ← parted]
  simp

/-- The components are the place that the path starts from, where it says so, and the steps. -/
theorem components_eq : p.components = (if p.isAbsolute then [.root] else
    if p.pieces.head? = some "." then [.current] else []) ++ p.steps := by
  -- The two ways to start exclude each other.
  simp only [components, steps]
  split
  · rfl
  · split <;> rfl

/-- The steps are the components that are no places to start from. -/
theorem steps_eq : p.steps = p.components.filter fun c => c ≠ .root ∧ c ≠ .current := by
  -- A step is never dropped, and a place to start from always is.
  have all : p.steps.filter (fun c => c ≠ .root ∧ c ≠ .current) = p.steps := by
    refine List.filter_eq_self.mpr fun c member => ?_
    obtain ⟨piece, _, counts⟩ := List.mem_filterMap.mp member
    simpa using Component.not_start_of_ofPiece counts
  rw [components_eq, List.filter_append, all]
  split
  · simp
  · split <;> simp

/-- A path is absolute when its components begin at the root. -/
theorem isAbsolute_iff : p.isAbsolute = true ↔ p.components.head? = some .root := by
  rw [components_eq]
  split
  · simp_all
  · -- Neither the current place nor a step is the root.
    rename_i relative
    refine iff_of_false relative fun found => ?_
    split at found
    · cases found
    · obtain ⟨piece, _, counts⟩ := List.mem_filterMap.mp (List.mem_of_mem_head? found)
      exact (Component.not_start_of_ofPiece counts).1 rfl

/-- The only path without components is the empty one. -/
theorem components_eq_nil_iff : p.components = [] ↔ p.text = "" := by
  constructor
  · intro bare
    rw [components_eq, List.append_eq_nil_iff] at bare
    obtain ⟨start, bare⟩ := bare
    rw [← String.toList_eq_nil_iff]
    cases chars : p.text.toList with
    | nil => rfl
    | cons c rest =>
      -- The first piece begins with the first character, which is no slash.
      have relative : c ≠ '/' := by
        rintro rfl
        simp [isAbsolute, chars] at start
      obtain ⟨first, others, parted⟩ : ∃ first others, rest.splitOn '/' = first :: others :=
        List.exists_cons_of_ne_nil (List.splitOnP_ne_nil _ rest)
      have pieces : p.pieces = String.ofList (c :: first) :: others.map String.ofList := by
        simp only [List.splitOn] at parted
        simp [Path.pieces, chars, List.splitOn, List.splitOnP_cons_eq_if_modifyHead, relative,
          parted]
      -- Such a piece counts, unless it is a dot, which counts at the start.
      rw [steps, pieces, List.filterMap_eq_nil_iff] at bare
      rcases Component.ofPiece_eq_none_iff.mp (bare _ (.head _)) with empty | dot
      · simp at empty
      · rw [pieces, dot] at start
        split at start
        · cases start
        · cases start
  · intro empty
    obtain ⟨text⟩ := p
    cases empty
    rfl

/-- Behind a slash, only steps count; and a slash in front of everything is the root. -/
theorem components_slash (front next : Path) :
    (⟨front.text ++ "/" ++ next.text⟩ : Path).components =
      (if front.text = "" then [.root] else front.components) ++ next.steps := by
  -- The place to start from is told by the front, unless that is empty.
  have steps : (⟨front.text ++ "/" ++ next.text⟩ : Path).steps = front.steps ++ next.steps := by
    rw [Path.steps, pieces_slash, List.filterMap_append]
    rfl
  have head : (⟨front.text ++ "/" ++ next.text⟩ : Path).pieces.head? = front.pieces.head? := by
    rw [pieces_slash, List.head?_append_of_ne_nil _ pieces_ne_nil]
  rw [components_eq, steps, head]
  by_cases empty : front.text = ""
  · have none : front.steps = [] := by
      rw [steps_eq, components_eq_nil_iff.mpr empty]
      rfl
    simp [isAbsolute, empty, none]
  · -- Both paths start from the same place.
    have absolute : (⟨front.text ++ "/" ++ next.text⟩ : Path).isAbsolute = front.isAbsolute := by
      have chars : front.text.toList ≠ [] := by simpa using empty
      simp only [isAbsolute, String.toList_append, List.append_assoc]
      rw [List.head?_append_of_ne_nil _ chars]
    rw [absolute, if_neg empty, components_eq (p := front), List.append_assoc]

/-- A slash at the end of a path does not count, unless it is the root. -/
theorem components_trailing (front : Path) : (⟨front.text ++ "/"⟩ : Path).components =
    if front.text = "" then [.root] else front.components := by
  -- It is the case of nothing behind the slash.
  have whole := components_slash front ⟨""⟩
  rw [String.append_empty, show steps ⟨""⟩ = [] from rfl, List.append_nil] at whole
  exact whole

/-- Where a way leads to from a base: an absolute one starts anew, as one from nowhere does, and
the steps of any other come behind the components of the base. -/
theorem components_join (base next : Path) : (base.join next).components =
    if next.isAbsolute ∨ base.components = [] then next.components
    else base.components ++ next.steps := by
  rw [join]
  by_cases absolute : next.isAbsolute = true
  · simp [absolute]
  · by_cases empty : base.text = ""
    · have none : base.components = [] := components_eq_nil_iff.mpr empty
      simp [absolute, empty, none]
    · have some : base.components ≠ [] := mt components_eq_nil_iff.mp empty
      simp only [absolute, empty, some, Bool.false_eq_true, if_false, false_or]
      split
      · -- The slash at the end of the base is the one that parts it from the way.
        rename_i ends
        obtain ⟨front, shape⟩ := List.getLast?_eq_some_iff.mp ends
        have text : base = ⟨String.ofList front ++ "/"⟩ := by
          rw [Path.mk.injEq, ← String.toList_inj, shape]
          simp
        rw [text, components_slash ⟨String.ofList front⟩ next, components_trailing]
      · rw [components_slash, if_neg empty]

/-- Bases and ways that are alike lead to places that are alike. -/
theorem components_join_congr (same : base.components = base'.components)
    (also : next.components = next'.components) :
    (base.join next).components = (base'.join next').components := by
  have absolute : next.isAbsolute = next'.isAbsolute := by
    rw [Bool.eq_iff_iff, isAbsolute_iff, isAbsolute_iff, also]
  -- Whether the way starts anew, and which steps it has, can be read off its components.
  rw [components_join, components_join, absolute, same, also, steps_eq, steps_eq, also]

example : ((⟨"/A/"⟩ : Path).join ⟨"out//Kit.a"⟩).components =
    ((⟨"//A/."⟩ : Path).join ⟨"out/./Kit.a"⟩).components := by decide

end Path

end BuildGraph
