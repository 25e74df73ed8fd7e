/-! Finite maps whose keys stand in strictly increasing order, each in the spelling first given. -/

namespace BuildGraph

universe u v w

/-- A finite map as its list of entries in key order. -/
structure SortedMap (κ : Type u) (ν : Type v) [Ord κ] where
  -- The order is strict, so no two keys compare equal.
  entries : List (κ × ν)
  ordered : entries.Pairwise fun a b => compare a.1 b.1 = .lt

namespace SortedMap

variable {κ : Type u} {ν : Type v} {μ : Type w} [Ord κ]

/-- Maps with the same entries are the same map. -/
@[ext] theorem ext {a b : SortedMap κ ν} (same : a.entries = b.entries) : a = b := by
  -- The other field is a proof.
  cases a; cases b; cases same; rfl

instance : EmptyCollection (SortedMap κ ν) where
  emptyCollection := ⟨[], .nil⟩

@[simp] theorem entries_empty : (∅ : SortedMap κ ν).entries = [] :=
  -- The empty map is built from the empty list.
  rfl

instance : Inhabited (SortedMap κ ν) where
  default := {}

instance [DecidableEq κ] [DecidableEq ν] : DecidableEq (SortedMap κ ν) := fun a b =>
  decidable_of_iff (a.entries = b.entries) ⟨ext, congrArg entries⟩

instance [BEq κ] [BEq ν] : BEq (SortedMap κ ν) where
  beq a b := a.entries == b.entries

instance [Repr κ] [Repr ν] : Repr (SortedMap κ ν) where
  reprPrec a n := reprPrec a.entries n

/-- The keys in order. -/
def keys (m : SortedMap κ ν) : List κ :=
  m.entries.map Prod.fst

/-- The values in the order of their keys. -/
def values (m : SortedMap κ ν) : List ν :=
  m.entries.map Prod.snd

/-- The entry whose key compares equal to `k`. -/
def find? (m : SortedMap κ ν) (k : κ) : Option (κ × ν) :=
  -- The entry is given with its key, whose spelling may differ from the one asked for.
  m.entries.find? fun e => compare k e.1 == .eq

/-- The value held for `k`. -/
def get? (m : SortedMap κ ν) (k : κ) : Option ν :=
  (m.find? k).map Prod.snd

/-- Whether some key compares equal to `k`. -/
def contains (m : SortedMap κ ν) (k : κ) : Bool :=
  -- The value does not matter, and neither does the spelling of the key.
  (m.find? k).isSome

/-- Entries with the value at `k` replaced by what `f` makes of the old one, if any. -/
def upsert (k : κ) (f : Option ν → ν) : List (κ × ν) → List (κ × ν)
  | [] => [(k, f none)]
  | (held, value) :: rest =>
    match compare k held with
    | .lt => (k, f none) :: (held, value) :: rest
    -- A key that is there keeps its spelling.
    | .eq => (held, f (some value)) :: rest
    | .gt => (held, value) :: upsert k f rest

/-- An entry after an update was there before, up to its value, or has the new key. -/
theorem key_of_mem_upsert {k : κ} {f : Option ν → ν} {entries : List (κ × ν)} {e : κ × ν}
    (member : e ∈ upsert k f entries) : e.1 = k ∨ ∃ old ∈ entries, old.1 = e.1 := by
  -- Each branch of the update either keeps an entry, changes a value, or adds the key.
  induction entries with
  | nil => simp_all [upsert]
  | cons first rest ih =>
    obtain ⟨held, value⟩ := first
    rw [upsert] at member
    split at member
    · simp only [List.mem_cons] at member
      rcases member with rfl | rfl | later
      · exact .inl rfl
      · exact .inr ⟨_, .head _, rfl⟩
      · exact .inr ⟨e, .tail _ later, rfl⟩
    · simp only [List.mem_cons] at member
      rcases member with rfl | later
      · exact .inr ⟨(held, value), .head _, rfl⟩
      · exact .inr ⟨e, .tail _ later, rfl⟩
    · simp only [List.mem_cons] at member
      rcases member with rfl | later
      · exact .inr ⟨_, .head _, rfl⟩
      · rcases ih later with new | ⟨old, there, same⟩
        · exact .inl new
        · exact .inr ⟨old, .tail _ there, same⟩

/-- An update keeps the keys in order. -/
theorem ordered_upsert [Std.TransOrd κ] (k : κ) (f : Option ν → ν) {entries : List (κ × ν)}
    (ordered : entries.Pairwise fun a b => compare a.1 b.1 = .lt) :
    (upsert k f entries).Pairwise fun a b => compare a.1 b.1 = .lt := by
  -- The new key lands before the first greater one, and equal keys only change a value.
  induction entries with
  | nil => simp [upsert]
  | cons first rest ih =>
    obtain ⟨held, value⟩ := first
    obtain ⟨below, tail⟩ := List.pairwise_cons.mp ordered
    rw [upsert]
    split
    · rename_i less
      refine List.pairwise_cons.mpr ⟨fun e member => ?_, ordered⟩
      rcases List.mem_cons.mp member with rfl | later
      · exact less
      · exact Std.TransCmp.lt_trans less (below e later)
    · exact List.pairwise_cons.mpr ⟨below, tail⟩
    · rename_i greater
      refine List.pairwise_cons.mpr ⟨fun e member => ?_, ih tail⟩
      rcases key_of_mem_upsert member with new | ⟨old, there, same⟩
      · rw [new]; exact Std.OrientedCmp.gt_iff_lt.mp greater
      · rw [← same]; exact below old there

/-- Changing values entry by entry leaves the order of keys alone. -/
theorem ordered_mapEntries {entries : List (κ × ν)} (f : κ × ν → μ)
    (ordered : entries.Pairwise fun a b => compare a.1 b.1 = .lt) :
    (entries.map fun e => (e.1, f e)).Pairwise fun a b => compare a.1 b.1 = .lt :=
  -- The order looks at keys only.
  List.pairwise_map.mpr ordered

/-- The map with every value passed through `f`. -/
def map (m : SortedMap κ ν) (f : ν → μ) : SortedMap κ μ :=
  -- The keys are not touched, and so neither is their order.
  ⟨m.entries.map fun e => (e.1, f e.2), ordered_mapEntries (fun e => f e.2) m.ordered⟩

/-- The map with the value at `k`, if there is one, passed through `f`. -/
def modify (m : SortedMap κ ν) (k : κ) (f : ν → ν) : SortedMap κ ν :=
  -- At most one entry is concerned, since no two keys compare equal; its key keeps its spelling.
  ⟨m.entries.map fun e => (e.1, if compare k e.1 == .eq then f e.2 else e.2),
    ordered_mapEntries (fun e => if compare k e.1 == .eq then f e.2 else e.2) m.ordered⟩

/-- The map whose value at `k` is what `f` makes of the old one, if any. -/
def alter [Std.TransOrd κ] (m : SortedMap κ ν) (k : κ) (f : Option ν → ν) : SortedMap κ ν :=
  -- An entry that is there keeps the spelling of its key.
  ⟨upsert k f m.entries, ordered_upsert k f m.ordered⟩

/-- The map that holds `value` at `k`, under the spelling already there if there is one. -/
def insert [Std.TransOrd κ] (m : SortedMap κ ν) (k : κ) (value : ν) : SortedMap κ ν :=
  -- The old value has no say in the new one.
  m.alter k fun _ => value

/-- The map of a list of entries, a later value replacing an earlier one. -/
def ofList [Std.TransOrd κ] (entries : List (κ × ν)) : SortedMap κ ν :=
  -- From left to right; the first spelling of a key stays, and the last value.
  entries.foldl (fun m e => m.insert e.1 e.2) {}

end SortedMap

end BuildGraph
