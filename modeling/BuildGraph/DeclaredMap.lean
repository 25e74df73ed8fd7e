/-! Finite maps whose keys stand in the order in which they were first declared. -/

namespace BuildGraph

universe u v

/-- A finite map as its list of entries in order of declaration. -/
structure DeclaredMap (κ : Type u) (ν : Type v) where
  -- Keys are told apart by equality here, and nothing is said about their order.
  entries : List (κ × ν)
  distinct : (entries.map Prod.fst).Nodup

namespace DeclaredMap

variable {κ : Type u} {ν : Type v}

/-- Maps with the same entries in the same order are the same map. -/
@[ext] theorem ext {a b : DeclaredMap κ ν} (same : a.entries = b.entries) : a = b := by
  -- The other field is a proof.
  cases a; cases b; cases same; rfl

instance : EmptyCollection (DeclaredMap κ ν) where
  emptyCollection := ⟨[], .nil⟩

@[simp] theorem entries_empty : (∅ : DeclaredMap κ ν).entries = [] :=
  -- The empty map is built from the empty list.
  rfl

instance : Inhabited (DeclaredMap κ ν) where
  default := {}

instance [DecidableEq κ] [DecidableEq ν] : DecidableEq (DeclaredMap κ ν) := fun a b =>
  decidable_of_iff (a.entries = b.entries) ⟨ext, congrArg entries⟩

instance [Repr κ] [Repr ν] : Repr (DeclaredMap κ ν) where
  reprPrec a n := reprPrec a.entries n

/-- The keys in order of declaration. -/
def keys (m : DeclaredMap κ ν) : List κ :=
  m.entries.map Prod.fst

/-- The values in order of declaration. -/
def values (m : DeclaredMap κ ν) : List ν :=
  m.entries.map Prod.snd

/-- Changing values entry by entry leaves the keys alone. -/
theorem distinct_mapEntries {entries : List (κ × ν)} (f : κ × ν → ν)
    (distinct : (entries.map Prod.fst).Nodup) :
    ((entries.map fun e => (e.1, f e)).map Prod.fst).Nodup := by
  -- The keys are those from before, in the same order.
  simpa [List.map_map, Function.comp_def] using distinct

/-- The map with every value passed through `f`. -/
def map (m : DeclaredMap κ ν) (f : ν → ν) : DeclaredMap κ ν :=
  -- The keys are not touched, so they stay distinct and in their order.
  ⟨m.entries.map fun e => (e.1, f e.2), distinct_mapEntries (fun e => f e.2) m.distinct⟩

variable [DecidableEq κ]

/-- The value declared for `k`. -/
def get? (m : DeclaredMap κ ν) (k : κ) : Option ν :=
  -- The first entry is the only one of its key.
  (m.entries.find? fun e => e.1 = k).map Prod.snd

/-- The map with the value at `k`, if there is one, passed through `f`. -/
def modify (m : DeclaredMap κ ν) (k : κ) (f : ν → ν) : DeclaredMap κ ν :=
  -- At most one entry is concerned, since the keys are distinct.
  ⟨m.entries.map fun e => (e.1, if e.1 = k then f e.2 else e.2),
    distinct_mapEntries (fun e => if e.1 = k then f e.2 else e.2) m.distinct⟩

/-- The map with `value` at `k`: in the place of an earlier declaration, or else at the end. -/
def insert (m : DeclaredMap κ ν) (k : κ) (value : ν) : DeclaredMap κ ν :=
  -- A declaration that is repeated keeps the place of the first.
  if declared : k ∈ m.keys then m.modify k fun _ => value
  else ⟨m.entries ++ [(k, value)], by
    simpa [List.nodup_append, m.distinct, keys] using fun a v there same =>
      declared (List.mem_map.mpr ⟨(a, v), there, same⟩)⟩

/-- The map of a list of entries, a later value taking the place of an earlier one. -/
def ofList (entries : List (κ × ν)) : DeclaredMap κ ν :=
  -- From left to right, so the order is that of the first declarations.
  entries.foldl (fun m e => m.insert e.1 e.2) {}

/-- Maps are alike when they hold like values for the same keys, in any order. -/
instance [BEq ν] : BEq (DeclaredMap κ ν) where
  beq a b := a.entries.length == b.entries.length &&
    a.entries.all fun e => (b.get? e.1).any fun value => e.2 == value

end DeclaredMap

end BuildGraph
