/-! Paths compare by the places they name, while each keeps the spelling it was given. -/

namespace BuildGraph

/-- A path as it was spelled. -/
structure Path where
  text : String
deriving DecidableEq, Inhabited, Repr

/-- One step on the way a path describes. -/
inductive Component where
  | root
  | current
  | parent
  | named (name : String)
deriving DecidableEq, Inhabited, Repr

namespace Component

/-- The root comes first, then the current place, the parent, and names. -/
def rank : Component → Nat
  -- The numbers only serve the order below.
  | root => 0
  | current => 1
  | parent => 2
  | named _ => 3

/-- The name of a named step. -/
def label : Component → String
  -- All steps but the named ones are told apart by their rank alone.
  | named name => name
  | _ => ""

instance : Ord Component where
  compare := compareLex (compareOn rank) (compareOn label)

instance : Std.TransOrd Component :=
  inferInstanceAs (Std.TransCmp (compareLex (compareOn rank) (compareOn label)))

instance : Std.LawfulEqOrd Component where
  eq_of_compare {a b} same := by
    -- Equal ranks fix the shape, and the label fixes the name of a named step.
    obtain ⟨ranks, labels⟩ := compareLex_eq_eq.mp same
    have ranks : a.rank = b.rank := Std.LawfulEqOrd.eq_of_compare ranks
    have labels : a.label = b.label := Std.LawfulEqOrd.eq_of_compare labels
    cases a <;> cases b <;> simp_all [rank, label]

/-- The step a piece between two slashes stands for, if it counts. -/
def ofPiece (piece : String) : Option Component :=
  -- Empty pieces come from slashes that are repeated or stand at the end.
  if piece = "" ∨ piece = "." then none
  else if piece = ".." then some .parent
  else some (.named piece)

end Component

namespace Path

/-- The texts between the slashes of a path, from left to right. -/
def pieces (p : Path) : List String :=
  -- Nothing is left out yet, so the first piece tells whether the path is absolute.
  (p.text.toList.splitOn '/').map String.ofList

/-- A path that starts at the root, whatever the current place is. -/
def isAbsolute (p : Path) : Bool :=
  -- One leading slash is enough, and further ones add nothing.
  p.text.toList.head? = some '/'

/-- The steps of a path: repeated and trailing slashes and dots after the first place do not count.
-/
def components (p : Path) : List Component :=
  -- A dot counts at the very beginning only, and not behind a slash.
  let steps := p.pieces.filterMap Component.ofPiece
  if p.isAbsolute then .root :: steps
  else if p.pieces.head? = some "." then .current :: steps
  else steps

/-- Two spellings are alike when they have the same steps. -/
instance : BEq Path where
  beq a b := a.components == b.components

/-- Paths come in the order of their steps, and a shorter way comes before a longer one. -/
instance : Ord Path where
  compare := compareOn components

instance : Std.TransOrd Path :=
  inferInstanceAs (Std.TransCmp (compareOn components))

/-- Any two paths can be compared. -/
def partialCompare (a b : Path) : Option Ordering :=
  -- Defined by the order, so the two can never disagree.
  some (compare a b)

/-- Paths compare equal exactly when they have the same steps. -/
theorem compare_eq_iff {a b : Path} : compare a b = .eq ↔ a.components = b.components :=
  -- The order of paths is that of their steps, which are equal only if they are the same.
  Std.LawfulEqOrd.compare_eq_iff_eq (a := a.components) (b := b.components)

/-- Likeness of spellings agrees with the order. -/
theorem beq_iff_compare {a b : Path} : (a == b) = true ↔ compare a b = .eq := by
  -- Likeness is equality of the steps as well.
  rw [compare_eq_iff]
  exact beq_iff_eq (a := a.components) (b := b.components)

/-- The path reached from `base` by following `next`; an absolute `next` starts anew. -/
def join (base next : Path) : Path :=
  -- No second slash is put behind one that is there, and none behind the empty path.
  if next.isAbsolute then next
  else if base.text = "" ∨ base.text.toList.getLast? = some '/' then ⟨base.text ++ next.text⟩
  else ⟨base.text ++ "/" ++ next.text⟩

end Path

end BuildGraph
