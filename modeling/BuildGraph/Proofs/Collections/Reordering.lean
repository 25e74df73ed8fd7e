import BuildGraph.Proofs.Collections

/-! Steps that are about different things do not interfere: operations on sets and maps can be done
in either order, and what is read in the end has taken the one step that is about it. -/

namespace BuildGraph

universe u v w

section Folds

variable {σ : Type u} {β : Type v} {γ : Type w} {step : σ → β → σ} {items : List β}

/-- Steps that are about other things leave what is read as it is. -/
theorem foldl_of_others (read : σ → γ)
    (others : ∀ item ∈ items, ∀ s, read (step s item) = read s) (s : σ) :
    read (items.foldl step s) = read s := by
  -- The induction is on the steps; each of them leaves what is read.
  induction items generalizing s with
  | nil => rfl
  | cons first rest ih =>
    rw [List.foldl_cons, ih fun item later => others item (.tail _ later)]
    exact others first (.head _) s

/-- Of several different steps, what is read has taken the one that is about it. -/
theorem foldl_of_one (read : σ → γ) (g : γ → γ) {item : β} (distinct : items.Nodup)
    (member : item ∈ items) (own : ∀ s, read (step s item) = g (read s))
    (others : ∀ other ∈ items, other ≠ item → ∀ s, read (step s other) = read s) (s : σ) :
    read (items.foldl step s) = g (read s) := by
  -- The step comes once; those before and after it are about other things.
  induction items generalizing s with
  | nil => cases member
  | cons first rest ih =>
    obtain ⟨fresh, distinct⟩ := List.nodup_cons.mp distinct
    rw [List.foldl_cons]
    rcases List.mem_cons.mp member with rfl | later
    · have rest_others : ∀ other ∈ rest, ∀ s, read (step s other) = read s := fun other there =>
        others other (.tail _ there) fun same => fresh (same ▸ there)
      rw [foldl_of_others read rest_others, own]
    · have elsewhere : first ≠ item := fun same => fresh (same ▸ later)
      rw [ih distinct later fun other there => others other (.tail _ there),
        others first (.head _) elsewhere]

end Folds

namespace SortedSet

variable {α : Type u} [Ord α] [Std.TransOrd α] {s : SortedSet α}

/-- Two things that are not alike can be added in either order. -/
theorem insert_comm {a b : α} (apart : compare a b ≠ .eq) :
    (s.insert a).insert b = (s.insert b).insert a := by
  -- Whether one of them was there before has nothing to do with the other.
  have first : (s.insert a).contains b = s.contains b := by
    rw [Bool.eq_iff_iff, contains_insert, or_iff_right fun same =>
      apart (Std.OrientedCmp.eq_symm same)]
  have second : (s.insert b).contains a = s.contains a := by
    rw [Bool.eq_iff_iff, contains_insert, or_iff_right apart]
  refine ext_mem fun c => ?_
  rw [mem_insert, mem_insert, mem_insert, mem_insert, first, second, or_assoc, or_assoc]
  exact or_congr_right or_comm

/-- The members of a set that different things were added to are those from before, and what was
added and was not there before in some spelling. -/
theorem mem_insertAll_of_apart {members : List α} {a : α}
    (apart : members.Pairwise fun b c => compare b c ≠ .eq) :
    a ∈ (s.insertAll members).toList ↔ a ∈ s.toList ∨ a ∈ members ∧ s.contains a = false := by
  -- What is added first is not there in the spelling of anything that is added later.
  induction members generalizing s with
  | nil => simp [insertAll]
  | cons first rest ih =>
    obtain ⟨others, apart⟩ := List.pairwise_cons.mp apart
    have still : a ∈ rest → (s.insert first).contains a = s.contains a := fun later => by
      rw [Bool.eq_iff_iff, contains_insert, or_iff_right fun same =>
        others a later (Std.OrientedCmp.eq_symm same)]
    rw [insertAll, List.foldl_cons]
    refine (ih apart).trans ?_
    rw [and_congr_right fun later => by rw [still later], mem_insert, or_assoc, List.mem_cons,
      or_and_right]
    exact or_congr_right (or_congr_left (and_congr_right fun same => by rw [same]))

end SortedSet

namespace SortedMap

variable {κ : Type u} {ν : Type v} {μ : Type w} [Ord κ] {m : SortedMap κ ν}

/-- Values can be passed through two functions at once. -/
theorem map_map {ξ : Type w} (m : SortedMap κ ν) (f : ν → μ) (g : μ → ξ) :
    (m.map f).map g = m.map fun value => g (f value) := by
  -- Both maps have the same entries.
  apply ext
  simp [map, Function.comp_def]

/-- Changes under two keys can be made in either order, unless they are made under one key and
depend on each other. -/
theorem modify_comm [Std.TransOrd κ] {k k' : κ} {f g : ν → ν}
    (apart : compare k k' = .eq → ∀ value, g (f value) = f (g value)) :
    (m.modify k f).modify k' g = (m.modify k' g).modify k f := by
  apply ext
  simp only [modify, List.map_map]
  refine List.map_congr_left fun e _ => ?_
  simp only [Function.comp_apply, beq_iff_eq]
  -- An entry that both changes are made in has a key like both.
  by_cases here : compare k e.1 = .eq
  · by_cases there : compare k' e.1 = .eq
    · have same := Std.TransCmp.eq_trans here (Std.OrientedCmp.eq_symm there)
      simp [here, there, apart same]
    · simp [here, there]
  · simp [here]

/-- Values can be passed through a function before or after an update, if what the update makes of
a value commutes with that function. -/
theorem map_alter [Std.TransOrd κ] {k : κ} {f : Option μ → μ} {f' : Option ν → ν} {g : ν → μ}
    (commute : ∀ held, f (held.map g) = g (f' held)) :
    (m.map g).alter k f = (m.alter k f').map g := by
  apply ext
  change upsert k f (m.entries.map fun e => (e.1, g e.2)) =
    (upsert k f' m.entries).map fun e => (e.1, g e.2)
  -- The place of the update depends on keys only.
  generalize m.entries = entries
  induction entries with
  | nil => simp [upsert, ← commute]
  | cons first rest ih =>
    rw [List.map_cons, upsert, upsert]
    split <;> simp [ih, ← commute]

/-- The keys of a map as a set. -/
def keySet (m : SortedMap κ ν) : SortedSet κ :=
  -- The keys of a map are in order already.
  ⟨m.keys, List.pairwise_map.mpr m.ordered⟩

/-- The set of keys contains those that the map contains. -/
theorem contains_keySet (m : SortedMap κ ν) (k : κ) : m.keySet.contains k = m.contains k := by
  -- Keys are looked for in the same way on both sides.
  rw [Bool.eq_iff_iff, SortedSet.contains_iff]
  simp [contains, find?, keySet, keys]

/-- An update adds its key to the others. -/
theorem keySet_alter [Std.TransOrd κ] (m : SortedMap κ ν) (k : κ) (f : Option ν → ν) :
    (m.alter k f).keySet = m.keySet.insert k := by
  apply SortedSet.ext
  change (upsert k f m.entries).map Prod.fst = SortedSet.place k (m.entries.map Prod.fst)
  -- Both search for the place in the same way.
  generalize m.entries = entries
  induction entries with
  | nil => rfl
  | cons first rest ih =>
    rw [upsert, List.map_cons, SortedSet.place]
    cases compare k first.1 <;> simp [ih]

/-- Updates under keys that are not alike can be made in either order. -/
theorem alter_comm [Std.TransOrd κ] {k k' : κ} {f g : Option ν → ν} (apart : compare k k' ≠ .eq) :
    (m.alter k f).alter k' g = (m.alter k' g).alter k f := by
  have other : compare k' k ≠ .eq := fun same => apart (Std.OrientedCmp.eq_symm same)
  have keys : ((m.alter k f).alter k' g).keySet = ((m.alter k' g).alter k f).keySet := by
    simp only [keySet_alter, SortedSet.insert_comm apart]
  refine ext_get? (congrArg SortedSet.toList keys) fun key => ?_
  simp only [get?_alter, if_neg apart, if_neg other]
  -- No key is like both.
  by_cases here : compare key k = .eq
  · have elsewhere : compare key k' ≠ .eq := fun there =>
      apart (Std.TransCmp.eq_trans (Std.OrientedCmp.eq_symm here) there)
    simp [here, elsewhere]
  · simp [here]

end SortedMap

/-- Changes under two different keys can be made in either order. -/
theorem DeclaredMap.modify_comm {κ : Type u} {ν : Type v} [DecidableEq κ] {m : DeclaredMap κ ν}
    {k k' : κ} {f g : ν → ν} (apart : k ≠ k') :
    (m.modify k f).modify k' g = (m.modify k' g).modify k f := by
  -- No entry has both keys, so that each is changed once at most.
  apply ext
  simp only [modify, List.map_map]
  refine List.map_congr_left fun e _ => ?_
  simp only [Function.comp_apply]
  by_cases here : e.1 = k
  · simp [here, apart]
  · simp [here]

end BuildGraph
