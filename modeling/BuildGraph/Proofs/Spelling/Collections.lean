import Mathlib.Data.List.Perm.Subperm
import BuildGraph.Proofs.Collections.Reordering
import BuildGraph.Proofs.Matching

/-! Collections that are alike stay alike under every operation, and answer alike. -/

namespace BuildGraph

universe u v w

/-- Two spellings of one thing. -/
def Alike {α : Type u} [BEq α] (a b : α) : Prop :=
  -- One word for the equality of all types that ignore spellings.
  (a == b) = true

instance {α : Type u} [BEq α] (a b : α) : Decidable (Alike a b) :=
  inferInstanceAs (Decidable ((a == b) = true))

section Alike

variable {α : Type u} [BEq α]

/-- Lists are alike when their items are, one by one. -/
theorem alike_list_iff {xs ys : List α} : Alike xs ys ↔ List.Forall₂ Alike xs ys := by
  -- Lists are compared item by item, and those of different lengths differ.
  induction xs generalizing ys with
  | nil => cases ys <;> simp [Alike]
  | cons x xs ih =>
    cases ys with
    | nil => simp [Alike]
    | cons y ys =>
      rw [Alike, List.cons_beq_cons, Bool.and_eq_true, List.forall₂_cons, ← ih, Alike, Alike]

/-- Optional things are alike when they are there together, and alike. -/
theorem alike_option_iff {x y : Option α} : Alike x y ↔ Option.Rel Alike x y := by
  -- There are four cases, and two of them are ruled out on both sides.
  cases x <;> cases y <;> simp [Alike, Option.rel_some_some]

/-- Pairs are alike when both of their sides are. -/
theorem alike_pair_iff {β : Type v} [BEq β] {e e' : α × β} :
    Alike e e' ↔ Alike e.1 e'.1 ∧ Alike e.2 e'.2 := by
  -- Pairs are compared side by side.
  change (e.1 == e'.1 && e.2 == e'.2) = true ↔ _
  rw [Bool.and_eq_true, Alike, Alike]

section Ordered

variable [Ord α] [Std.LawfulBEqOrd α] {a b : α}

/-- Spellings of one thing are what compares equal. -/
theorem alike_iff_compare : Alike a b ↔ compare a b = .eq :=
  -- The order and the likeness of these types are made to agree.
  Std.LawfulBEqCmp.compare_eq_iff_beq.symm

variable [Std.TransOrd α]

/-- What is alike to a thing is alike to every spelling of it. -/
theorem alike_congr (same : Alike a b) (k : α) : Alike k a ↔ Alike k b := by
  -- Spellings compare alike with everything.
  rw [alike_iff_compare, alike_iff_compare, Std.TransCmp.congr_right (alike_iff_compare.mp same)]

/-- Spellings of the same things compare alike. -/
theorem alike_agree : Agree Alike (compare : α → α → Ordering) compare := by
  intro a a' same b b' also
  -- The spellings are exchanged on one side of the comparison after the other.
  have left : compare a b = compare a' b := Std.TransCmp.congr_left (alike_iff_compare.mp same)
  have right : compare a' b = compare a' b' := Std.TransCmp.congr_right (alike_iff_compare.mp also)
  rw [left, right]

end Ordered

end Alike

namespace SortedSet

/-- Sets are alike when their members are, one by one. -/
theorem alike_iff {α : Type u} [Ord α] [BEq α] {s s' : SortedSet α} :
    Alike s s' ↔ List.Forall₂ Alike s.toList s'.toList :=
  -- Sets are compared as the lists of their members.
  alike_list_iff

section Corresponding

variable {α : Type u} {β : Type v} [Ord α] [Ord β] {R : α → β → Prop}
  (agree : Agree R compare compare)

include agree

/-- What corresponds is placed at corresponding places. -/
theorem forall₂_place {xs : List α} {ys : List β} (same : List.Forall₂ R xs ys) {a : α} {a' : β}
    (pair : R a a') : List.Forall₂ R (place a xs) (place a' ys) := by
  -- Each comparison comes out the same on both sides, so that the search for the place goes alike.
  induction same with
  | nil => exact .cons pair .nil
  | cons first rest ih =>
    rw [place, place, agree pair first]
    split
    · exact .cons pair (.cons first rest)
    · exact .cons first rest
    · exact .cons first ih

/-- Sets whose members correspond contain what corresponds. -/
theorem contains_eq {s : SortedSet α} {s' : SortedSet β} (same : List.Forall₂ R s.toList s'.toList)
    {a : α} {a' : β} (pair : R a a') : s.contains a = s'.contains a' :=
  -- Each member is compared with what corresponds, and with the same result.
  any_eq_of_forall₂ (fun _ _ also => by rw [agree pair also]) same

/-- Behind first members that correspond, members have their counterparts behind as well. -/
theorem cover_tail [Std.TransOrd β] {x : α} {y : β} {xs : List α} {ys : List β}
    (below : ∀ a ∈ xs, compare x a = .lt) (first : R x y)
    (cover : ∀ a ∈ x :: xs, ∃ b ∈ y :: ys, R a b) : ∀ a ∈ xs, ∃ b ∈ ys, R a b := by
  intro a later
  obtain ⟨b, there, pair⟩ := cover a (.tail _ later)
  rcases List.mem_cons.mp there with rfl | behind
  · -- The first counterpart is taken, and what is greater has another one.
    have less := below a later
    have self : compare b b = .eq := Std.ReflCmp.compare_self
    rw [agree first pair, self] at less
    cases less
  · exact ⟨b, behind, pair⟩

variable [Std.TransOrd α] [Std.TransOrd β]

/-- Collecting what corresponds gives sets whose members correspond. -/
theorem forall₂_collect {xs : List α} {ys : List β} (same : List.Forall₂ R xs ys) :
    List.Forall₂ R (collect xs).toList (collect ys).toList := by
  -- The last items are placed first on both sides.
  induction same with
  | nil => exact .nil
  | cons first _ ih => exact forall₂_place agree ih first

/-- Two sets correspond, member by member, when each member of one has a counterpart in the
other. -/
theorem forall₂_of_cover {s : SortedSet α} {s' : SortedSet β}
    (left : ∀ a ∈ s.toList, ∃ b ∈ s'.toList, R a b)
    (right : ∀ b ∈ s'.toList, ∃ a ∈ s.toList, R a b) :
    List.Forall₂ R s.toList s'.toList := by
  obtain ⟨xs, ordered⟩ := s
  obtain ⟨ys, ordered'⟩ := s'
  simp only at left right ⊢
  -- The smallest members correspond, and so do the sets of all others.
  induction xs generalizing ys with
  | nil =>
    cases ys with
    | nil => exact .nil
    | cons y ys => obtain ⟨_, member, _⟩ := right y (.head _); cases member
  | cons x xs ih =>
    cases ys with
    | nil => obtain ⟨_, member, _⟩ := left x (.head _); cases member
    | cons y ys =>
      obtain ⟨below, tail⟩ := List.pairwise_cons.mp ordered
      obtain ⟨below', tail'⟩ := List.pairwise_cons.mp ordered'
      have first : R x y := by
        obtain ⟨b, there, pair⟩ := left x (.head _)
        obtain ⟨a, here, pair'⟩ := right y (.head _)
        rcases List.mem_cons.mp there with rfl | later
        · exact pair
        rcases List.mem_cons.mp here with rfl | later'
        · exact pair'
        -- Otherwise, one counterpart would come before the other, and after it as well.
        have before := below a later'
        rw [agree pair pair', Std.OrientedCmp.gt_iff_lt.mpr (below' b later)] at before
        cases before
      have rest := cover_tail agree below first left
      have rest' := cover_tail agree.flip below' first right
      exact .cons first (ih tail ys tail' rest rest')

end Corresponding

/-- Sets that contain the same are alike. -/
theorem alike_of_contains {α : Type u} [Ord α] [BEq α] [Std.TransOrd α] [Std.LawfulBEqOrd α]
    {s s' : SortedSet α} (same : ∀ a, s.contains a = s'.contains a) : Alike s s' := by
  -- Each member of the one has a spelling in the other.
  have cover : ∀ t t' : SortedSet α, (∀ a, t.contains a = t'.contains a) →
      ∀ a ∈ t.toList, ∃ b ∈ t'.toList, compare a b = .eq := by
    intro t t' same a member
    have there := contains_iff.mpr ⟨a, member, Std.ReflCmp.compare_self⟩
    rw [same] at there
    exact contains_iff.mp there
  refine alike_iff.mpr (forall₂_of_cover alike_agree (fun a member => ?_) fun b member => ?_)
  · obtain ⟨b, there, equal⟩ := cover s s' same a member
    exact ⟨b, there, alike_iff_compare.mpr equal⟩
  · obtain ⟨a, there, equal⟩ := cover s' s (fun a => (same a).symm) b member
    exact ⟨a, there, alike_iff_compare.mpr (Std.OrientedCmp.eq_symm equal)⟩

end SortedSet

namespace SortedMap

variable {κ : Type u} {ν : Type v} {μ : Type w} [Ord κ] [BEq κ] [BEq ν] {m m' : SortedMap κ ν}

/-- Maps are alike when their entries are, one by one. -/
theorem alike_iff : Alike m m' ↔ List.Forall₂ Alike m.entries m'.entries :=
  -- Maps are compared as the lists of their entries.
  alike_list_iff

instance [ReflBEq κ] [ReflBEq ν] : ReflBEq (SortedMap κ ν) where
  rfl {m} := show (m.entries == m.entries) = true from BEq.rfl

/-- The values of maps that are alike are alike, one by one. -/
theorem forall₂_values (same : Alike m m') : List.Forall₂ Alike m.values m'.values :=
  -- Entries that are alike have values that are.
  List.rel_map (P := Alike) (fun _ _ pair => (alike_pair_iff.mp pair).2) (alike_iff.mp same)

/-- Values of maps that are alike can be passed through functions. -/
theorem alike_map [BEq μ] (same : Alike m m') {f g : ν → μ}
    (step : ∀ value value', Alike value value' → Alike (f value) (g value')) :
    Alike (m.map f) (m'.map g) := by
  -- The keys of the entries stay as they are.
  refine alike_iff.mpr (List.rel_map (fun e e' pair => ?_) (alike_iff.mp same))
  obtain ⟨keys, values⟩ := alike_pair_iff.mp pair
  exact alike_pair_iff.mpr ⟨keys, step _ _ values⟩

variable [Std.TransOrd κ] [Std.LawfulBEqOrd κ] {k k' : κ}

/-- What maps that are alike hold for spellings of one key is alike. -/
theorem rel_get? (same : Alike m m') (key : Alike k k') :
    Option.Rel Alike (m.get? k) (m'.get? k') := by
  -- The first entry with the key is at the same place in both maps.
  have found := rel_find? (p := fun e => compare k e.1 == .eq) (q := fun e => compare k' e.1 == .eq)
    (fun e e' pair => by rw [alike_agree key (alike_pair_iff.mp pair).1]) (alike_iff.mp same)
  exact rel_optionMap (S := Alike) found fun _ _ pair => (alike_pair_iff.mp pair).2

/-- Maps are alike when what they hold for each key is. -/
theorem alike_of_rel_get? (same : ∀ k, Option.Rel Alike (m.get? k) (m'.get? k)) : Alike m m' := by
  -- There are values for the same keys on both sides, so that the keys are alike, one by one.
  have contained : ∀ k, m.keySet.contains k = m'.keySet.contains k := fun k => by
    rw [contains_keySet, contains_keySet, contains_eq_isSome_get?, contains_eq_isSome_get?,
      isSome_eq_of_rel (same k)]
  have keys : List.Forall₂ (fun e e' => Alike e.1 e'.1) m.entries m'.entries := by
    have sets := SortedSet.alike_iff.mp (SortedSet.alike_of_contains contained)
    exact List.forall₂_map_right_iff.mp (List.forall₂_map_left_iff.mp sets)
  refine alike_iff.mpr ((forall₂_and_mem keys).imp fun e e' ⟨key, here, there⟩ => ?_)
  -- And the value of a key is found under whatever spelling it is looked up by.
  have values := same e.1
  rw [get?_eq_some_iff.mpr ⟨e.1, Std.ReflCmp.compare_self, here⟩,
    get?_eq_some_iff.mpr ⟨e'.1, alike_iff_compare.mp key, there⟩] at values
  cases values with
  | some value => exact alike_pair_iff.mpr ⟨key, value⟩

/-- Changing what is held for spellings of one key keeps maps alike. -/
theorem alike_modify (same : Alike m m') (key : Alike k k') {f g : ν → ν}
    (step : ∀ value value', Alike value value' → Alike (f value) (g value')) :
    Alike (m.modify k f) (m'.modify k' g) := by
  refine alike_iff.mpr (List.rel_map (fun e e' pair => ?_) (alike_iff.mp same))
  obtain ⟨keys, values⟩ := alike_pair_iff.mp pair
  -- The same entries are changed on both sides.
  refine alike_pair_iff.mpr ⟨keys, ?_⟩
  rw [alike_agree key keys]
  split
  · exact step _ _ values
  · exact values

/-- Updating what is held for spellings of one key keeps maps alike. -/
theorem alike_alter (same : Alike m m') (key : Alike k k') {f g : Option ν → ν}
    (step : ∀ held held', Option.Rel Alike held held' → Alike (f held) (g held')) :
    Alike (m.alter k f) (m'.alter k' g) := by
  have entries := alike_iff.mp same
  refine alike_iff.mpr ?_
  change List.Forall₂ Alike (upsert k f m.entries) (upsert k' g m'.entries)
  -- The keys compare alike, so that both sides come to the same place.
  generalize m.entries = held at entries ⊢
  generalize m'.entries = held' at entries ⊢
  induction entries with
  | nil => exact .cons (alike_pair_iff.mpr ⟨key, step _ _ .none⟩) .nil
  | cons first others ih =>
    obtain ⟨keys, values⟩ := alike_pair_iff.mp first
    rw [upsert, upsert, alike_agree key keys]
    split
    · exact .cons (alike_pair_iff.mpr ⟨key, step _ _ .none⟩) (.cons first others)
    · exact .cons (alike_pair_iff.mpr ⟨keys, step _ _ (.some values)⟩) others
    · exact .cons first ih

end SortedMap

namespace DeclaredMap

variable {κ : Type u} {ν : Type v} [DecidableEq κ] {m m' : DeclaredMap κ ν}

/-- A key has a value when it is declared. -/
theorem isSome_get?_iff {m : DeclaredMap κ ν} {k : κ} : (m.get? k).isSome = true ↔ k ∈ m.keys := by
  -- What is found under a key is the value of an entry with that key.
  simp [Option.isSome_iff_exists, get?_eq_some_iff, keys]

variable [BEq ν]

/-- Maps are alike when what they hold for each key is, in whatever order the keys are declared. -/
theorem alike_iff : Alike m m' ↔ ∀ k, Option.Rel Alike (m.get? k) (m'.get? k) := by
  -- The comparison counts the entries, and looks up those of one side on the other.
  have unfolded : Alike m m' ↔ m.entries.length = m'.entries.length ∧
      ∀ e ∈ m.entries, ∃ value, m'.get? e.1 = some value ∧ Alike e.2 value := by
    change (_ == _ && List.all _ _) = true ↔ _
    simp only [Bool.and_eq_true, beq_iff_eq, List.all_eq_true, Option.any_eq_true, Alike]
  rw [unfolded]
  constructor
  · rintro ⟨sizes, held⟩ k
    -- As many keys are declared on both sides, so that they are the same ones.
    have fewer : m.keys ⊆ m'.keys := by
      intro key declared
      obtain ⟨e, member, rfl⟩ := List.mem_map.mp declared
      obtain ⟨value, found, _⟩ := held e member
      exact isSome_get?_iff.mp (by rw [found]; rfl)
    have keys : m.keys.Perm m'.keys :=
      (List.Nodup.subperm m.distinct fewer).perm_of_length_le (by simp [DeclaredMap.keys, sizes])
    cases found : m.get? k with
    | none =>
      have absent : m'.get? k = none := by
        rw [← Option.not_isSome_iff_eq_none, isSome_get?_iff, ← keys.mem_iff, ← isSome_get?_iff,
          found]
        simp
      rw [absent]
      exact .none
    | some value =>
      obtain ⟨value', there, pair⟩ := held (k, value) (get?_eq_some_iff.mp found)
      rw [there]
      exact .some pair
  · intro held
    -- The same keys are declared on both sides, and they are distinct.
    have keys : m.keys.Perm m'.keys := by
      refine (List.perm_ext_iff_of_nodup m.distinct m'.distinct).mpr fun k => ?_
      change k ∈ m.keys ↔ k ∈ m'.keys
      rw [← isSome_get?_iff, ← isSome_get?_iff, isSome_eq_of_rel (held k)]
    refine ⟨by simpa [DeclaredMap.keys] using keys.length_eq, fun e member => ?_⟩
    have pair := held e.1
    rw [get?_eq_some_iff.mpr member] at pair
    exact exists_right_of_rel pair

instance [ReflBEq ν] : ReflBEq (DeclaredMap κ ν) where
  rfl := alike_iff.mpr fun k => by
    cases get? _ k with
    | none => exact .none
    | some value => exact .some BEq.rfl

/-- Values of maps that are alike can be passed through functions. -/
theorem alike_map (same : Alike m m') {f g : ν → ν}
    (step : ∀ value value', Alike value value' → Alike (f value) (g value')) :
    Alike (m.map f) (m'.map g) := by
  refine alike_iff.mpr fun k => ?_
  -- What is held for a key is passed through on both sides.
  rw [get?_map, get?_map]
  exact rel_optionMap (alike_iff.mp same k) step

/-- Changing what is held for one key keeps maps alike. -/
theorem alike_modify (same : Alike m m') (k : κ) {f g : ν → ν}
    (step : ∀ value value', Alike value value' → Alike (f value) (g value')) :
    Alike (m.modify k f) (m'.modify k g) := by
  refine alike_iff.mpr fun k' => ?_
  -- The change is seen under the same key on both sides.
  rw [get?_modify, get?_modify]
  refine rel_optionMap (alike_iff.mp same k') fun value value' pair => ?_
  split
  · exact step _ _ pair
  · exact pair

end DeclaredMap

end BuildGraph
