/-! Finite sets in strictly increasing order, each member in one of its spellings. -/

namespace BuildGraph

universe u

/-- A finite set as its list of members in order. -/
structure SortedSet (α : Type u) [Ord α] where
  -- The order is strict, so no two members compare equal.
  toList : List α
  ordered : toList.Pairwise fun a b => compare a b = .lt

namespace SortedSet

variable {α : Type u} [Ord α]

/-- Sets with the same members in the same spellings are the same set. -/
@[ext] theorem ext {a b : SortedSet α} (same : a.toList = b.toList) : a = b := by
  -- The other field is a proof.
  cases a; cases b; cases same; rfl

instance : EmptyCollection (SortedSet α) where
  emptyCollection := ⟨[], .nil⟩

@[simp] theorem toList_empty : (∅ : SortedSet α).toList = [] :=
  -- The empty set is built from the empty list.
  rfl

instance : Inhabited (SortedSet α) where
  default := {}

instance [DecidableEq α] : DecidableEq (SortedSet α) := fun a b =>
  decidable_of_iff (a.toList = b.toList) ⟨ext, congrArg toList⟩

instance [BEq α] : BEq (SortedSet α) where
  beq a b := a.toList == b.toList

instance [Repr α] : Repr (SortedSet α) where
  reprPrec a n := reprPrec a.toList n

/-- The number of members. -/
def size (s : SortedSet α) : Nat :=
  s.toList.length

/-- The set has no member. -/
def isEmpty (s : SortedSet α) : Bool :=
  s.toList.isEmpty

/-- Whether some member compares equal to `a`. -/
def contains (s : SortedSet α) (a : α) : Bool :=
  -- Members are compared and not tested for equality, as the order tells them apart.
  s.toList.any fun b => compare a b == .eq

/-- The members that `keep` accepts. -/
def filter (s : SortedSet α) (keep : α → Bool) : SortedSet α :=
  -- A part of an ordered list is ordered.
  ⟨s.toList.filter keep, s.ordered.sublist List.filter_sublist⟩

/-- A member put in its place unless one that compares equal is there already. -/
def place (a : α) : List α → List α
  | [] => [a]
  | b :: rest =>
    match compare a b with
    | .lt => a :: b :: rest
    -- The spelling that is there stays.
    | .eq => b :: rest
    | .gt => b :: place a rest

/-- Placing a member brings in nothing else. -/
theorem mem_of_mem_place {a b : α} {members : List α} (member : b ∈ place a members) :
    b = a ∨ b ∈ members := by
  -- Each branch keeps the members, and one of them adds the new one.
  induction members with
  | nil => simp_all [place]
  | cons first rest ih =>
    rw [place] at member
    split at member
    · simpa using member
    · exact .inr member
    · rcases List.mem_cons.mp member with rfl | later
      · exact .inr (.head _)
      · exact (ih later).imp_right (.tail _)

/-- Placing a member keeps the order. -/
theorem ordered_place [Std.TransOrd α] (a : α) {members : List α}
    (ordered : members.Pairwise fun a b => compare a b = .lt) :
    (place a members).Pairwise fun a b => compare a b = .lt := by
  -- The new member lands before the first greater one.
  induction members with
  | nil => simp [place]
  | cons first rest ih =>
    obtain ⟨below, tail⟩ := List.pairwise_cons.mp ordered
    rw [place]
    split
    · rename_i less
      refine List.pairwise_cons.mpr ⟨fun b member => ?_, ordered⟩
      rcases List.mem_cons.mp member with rfl | later
      · exact less
      · exact Std.TransCmp.lt_trans less (below b later)
    · exact ordered
    · rename_i greater
      refine List.pairwise_cons.mpr ⟨fun b member => ?_, ih tail⟩
      rcases mem_of_mem_place member with rfl | there
      · exact Std.OrientedCmp.gt_iff_lt.mp greater
      · exact below b there

variable [Std.TransOrd α]

/-- The set with `a` added; a member that compares equal keeps its spelling. -/
def insert (s : SortedSet α) (a : α) : SortedSet α :=
  -- The order is kept by the proof that goes with `place`.
  ⟨place a s.toList, ordered_place a s.ordered⟩

/-- The set with all members of a list added; the spelling seen first stays. -/
def insertAll (s : SortedSet α) (members : List α) : SortedSet α :=
  -- From left to right, so an earlier spelling is there before a later one.
  members.foldl insert s

/-- The set of the members of a list; the spelling seen first stays. -/
def ofList (members : List α) : SortedSet α :=
  -- What compares equal to an earlier member is dropped.
  insertAll {} members

/-- The set of the members of a list; the spelling seen last stays. -/
def collect (members : List α) : SortedSet α :=
  -- From right to left, so the last of several members that compare equal gets in first and keeps
  -- its spelling.
  members.foldr (fun a s => s.insert a) {}

/-- Collecting brings in nothing that was not in the list. -/
theorem mem_of_mem_collect {a : α} {members : List α} (member : a ∈ (collect members).toList) :
    a ∈ members := by
  -- Members are placed one by one, and placing brings in nothing but the member.
  induction members with
  | nil => cases member
  | cons first rest ih =>
    rcases mem_of_mem_place member with rfl | there
    · exact .head _
    · exact .tail _ (ih there)

end SortedSet

end BuildGraph
