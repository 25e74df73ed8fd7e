import BuildGraph.DeclaredMap
import BuildGraph.SortedMap
import BuildGraph.SortedSet

/-! What sorted sets contain, and what sorted and declared maps hold, after each operation. -/

namespace BuildGraph

universe u v w

namespace SortedSet

variable {α : Type u} {β : Type v} [Ord α]

/-- Placing a member drops none of those that are there. -/
theorem mem_place_of_mem {a b : α} {members : List α} (member : b ∈ members) :
    b ∈ place a members := by
  -- The members in front of the place and those behind it all stay.
  induction members with
  | nil => cases member
  | cons first rest ih =>
    rw [place]
    split
    · exact .tail _ member
    · exact member
    · rcases List.mem_cons.mp member with rfl | later
      · exact .head _
      · exact .tail _ (ih later)

/-- Placing a member that is passed over by a partial function does not change what that makes of
the members. -/
theorem filterMap_place {f : α → Option β} {a : α} (passed : f a = none) (members : List α) :
    (place a members).filterMap f = members.filterMap f := by
  -- Wherever the member lands, it is passed over there.
  induction members with
  | nil => simp [place, passed]
  | cons first rest ih =>
    rw [place]
    split
    · simp [passed]
    · rfl
    · simp only [List.filterMap_cons, ih]

/-- A set contains what compares equal to one of its members. -/
theorem contains_iff {s : SortedSet α} {a : α} :
    s.contains a = true ↔ ∃ b ∈ s.toList, compare a b = .eq := by
  -- Containment is asked with `any`, so the member that answers need only compare equal.
  simp [contains]

/-- Where only what is the same compares equal, a set contains its members and nothing else. -/
theorem contains_iff_mem [Std.LawfulEqOrd α] {s : SortedSet α} {a : α} :
    s.contains a = true ↔ a ∈ s.toList := by
  -- Lawful equality turns the member that compares equal into the very one looked for.
  rw [contains_iff]
  constructor
  · rintro ⟨b, member, same⟩
    rwa [Std.LawfulEqOrd.compare_eq_iff_eq.mp same]
  · intro member
    exact ⟨a, member, Std.ReflCmp.compare_self⟩

/-- Placing commutes with a map that keeps the order. -/
theorem place_map [Ord β] {f : α → β} (agree : ∀ a b, compare (f a) (f b) = compare a b) (a : α)
    (members : List α) : place (f a) (members.map f) = (place a members).map f := by
  -- Each comparison comes out the same for the images.
  induction members with
  | nil => rfl
  | cons first rest ih =>
    simp only [List.map_cons, place, agree]
    split <;> simp [ih]

variable [Std.TransOrd α]

/-- Members that compare equal are one member. -/
theorem eq_of_compare {s : SortedSet α} {a b : α} (member : a ∈ s.toList) (other : b ∈ s.toList)
    (same : compare a b = .eq) : a = b := by
  -- Of two members at different places, one is smaller than the other.
  obtain ⟨i, low, rfl⟩ := List.getElem_of_mem member
  obtain ⟨j, high, rfl⟩ := List.getElem_of_mem other
  have ordered := List.pairwise_iff_getElem.mp s.ordered
  rcases Nat.lt_trichotomy i j with before | rfl | behind
  · simp [ordered i j low high before] at same
  · rfl
  · have less := ordered j i high low behind
    simp [Std.OrientedCmp.gt_iff_lt.mpr less] at same

/-- After placing a member, it is there in some spelling. -/
theorem exists_mem_place (a : α) (members : List α) :
    ∃ b ∈ place a members, compare a b = .eq := by
  -- The member lands somewhere, unless a member like it is there already.
  induction members with
  | nil => exact ⟨a, by simp [place], Std.ReflCmp.compare_self⟩
  | cons first rest ih =>
    rw [place]
    split
    · exact ⟨a, .head _, Std.ReflCmp.compare_self⟩
    · rename_i same
      exact ⟨first, .head _, same⟩
    · obtain ⟨b, there, same⟩ := ih
      exact ⟨b, .tail _ there, same⟩

/-- Placing a member that is there already, in whatever spelling, changes nothing. -/
theorem place_eq_self {a : α} {members : List α}
    (ordered : members.Pairwise fun a b => compare a b = .lt)
    (there : ∃ b ∈ members, compare a b = .eq) : place a members = members := by
  -- The search for the place ends at the spelling that is there.
  induction members with
  | nil => simp at there
  | cons first rest ih =>
    obtain ⟨below, tail⟩ := List.pairwise_cons.mp ordered
    obtain ⟨b, member, same⟩ := there
    rw [place]
    split
    · rename_i less
      rcases List.mem_cons.mp member with rfl | later
      · simp [less] at same
      · simp [Std.TransCmp.lt_trans less (below b later)] at same
    · rfl
    · rename_i greater
      rcases List.mem_cons.mp member with rfl | later
      · simp [greater] at same
      · rw [ih tail ⟨b, later, same⟩]

/-- Adding what a set contains changes nothing. -/
theorem insert_eq_self {s : SortedSet α} {a : α} (held : s.contains a = true) : s.insert a = s :=
  -- `place` stops at the first member that compares equal and leaves it in its spelling.
  ext (place_eq_self s.ordered (contains_iff.mp held))

/-- A set contains what was added to it, what it contained before, and nothing else. -/
theorem contains_insert {s : SortedSet α} {a b : α} :
    (s.insert a).contains b = true ↔ compare b a = .eq ∨ s.contains b = true := by
  -- What is placed is either new or had an equal there already; either way something equal to it
  -- stands in the list afterwards.
  rw [contains_iff, contains_iff]
  constructor
  · rintro ⟨c, member, same⟩
    rcases mem_of_mem_place member with rfl | before
    · exact .inl same
    · exact .inr ⟨c, before, same⟩
  · rintro (same | ⟨c, there, also⟩)
    · obtain ⟨c, placed, also⟩ := exists_mem_place a s.toList
      exact ⟨c, placed, Std.TransCmp.eq_trans same also⟩
    · exact ⟨c, mem_place_of_mem there, also⟩

/-- The members of a set that was added to are those from before, and what was added unless it was
there in some spelling. -/
theorem mem_insert {s : SortedSet α} {a b : α} :
    b ∈ (s.insert a).toList ↔ b ∈ s.toList ∨ b = a ∧ s.contains a = false := by
  cases held : s.contains a with
  | true => simp [insert_eq_self held]
  | false =>
    constructor
    · intro member
      rcases mem_of_mem_place member with rfl | before
      · exact .inr ⟨rfl, rfl⟩
      · exact .inl before
    · rintro (before | ⟨rfl, _⟩)
      · exact mem_place_of_mem before
      · -- The spelling that is there cannot be one from before.
        obtain ⟨c, placed, same⟩ := exists_mem_place b s.toList
        rcases mem_of_mem_place placed with rfl | there
        · exact placed
        · simp [contains_iff.mpr ⟨c, there, same⟩] at held

/-- Collecting keeps every member in some spelling. -/
theorem exists_mem_collect {a : α} {members : List α} (member : a ∈ members) :
    ∃ b ∈ (collect members).toList, compare a b = .eq := by
  -- A member is placed when its turn comes, and what comes later drops nothing.
  induction members with
  | nil => cases member
  | cons first rest ih =>
    rcases List.mem_cons.mp member with rfl | later
    · exact exists_mem_place a _
    · obtain ⟨b, there, same⟩ := ih later
      exact ⟨b, mem_place_of_mem there, same⟩

/-- Where equal members have the same image, collecting loses no image and brings in none. -/
theorem mem_map_collect {f : α → β} (faithful : ∀ a b, compare a b = .eq → f a = f b)
    {members : List α} {k : β} :
    k ∈ (collect members).toList.map f ↔ k ∈ members.map f := by
  -- What is collected comes from the list, and what is dropped has an equal that stays.
  simp only [List.mem_map]
  constructor
  · rintro ⟨a, member, rfl⟩
    exact ⟨a, mem_of_mem_collect member, rfl⟩
  · rintro ⟨a, member, rfl⟩
    obtain ⟨b, there, same⟩ := exists_mem_collect member
    exact ⟨b, there, (faithful a b same).symm⟩

/-- Whether a collected set contains something can be read off the list. -/
theorem contains_collect {members : List α} {a : α} :
    (collect members).contains a = true ↔ ∃ b ∈ members, compare a b = .eq := by
  -- Equality of the order is transitive, so that it does not matter which spelling stays.
  rw [contains_iff]
  constructor
  · rintro ⟨b, there, same⟩
    exact ⟨b, mem_of_mem_collect there, same⟩
  · rintro ⟨b, there, same⟩
    obtain ⟨c, placed, also⟩ := exists_mem_collect there
    exact ⟨c, placed, Std.TransCmp.eq_trans same also⟩

/-- What is found first in a set is found for the smallest member that has it. -/
theorem findSome?_eq_some_iff {s : SortedSet α} {f : α → Option β} {b : β} :
    s.toList.findSome? f = some b ↔
      ∃ a ∈ s.toList, f a = some b ∧ ∀ c ∈ s.toList, compare c a = .lt → f c = none := by
  -- The members in front of one are those that are smaller.
  rw [List.findSome?_eq_some_iff]
  constructor
  · rintro ⟨before, a, after, split, found, none⟩
    refine ⟨a, by simp [split], found, fun c member less => ?_⟩
    have ordered := s.ordered
    rw [split] at member ordered
    rcases List.mem_append.mp member with early | late
    · exact none c early
    · rcases List.mem_cons.mp late with rfl | behind
      · simp [Std.ReflCmp.compare_self] at less
      · have greater := (List.pairwise_cons.mp (List.pairwise_append.mp ordered).2.1).1 c behind
        simp [Std.OrientedCmp.gt_iff_lt.mpr greater] at less
  · rintro ⟨a, member, found, none⟩
    obtain ⟨before, after, split⟩ := List.append_of_mem member
    have ordered := s.ordered
    rw [split] at ordered
    refine ⟨before, a, after, split, found, fun c early => ?_⟩
    have less := (List.pairwise_append.mp ordered).2.2 c early a (.head _)
    exact none c (by simp [split, early]) less

/-- A list in strict order is collected as it is. -/
theorem toList_collect_of_ordered {members : List α}
    (ordered : members.Pairwise fun a b => compare a b = .lt) :
    (collect members).toList = members := by
  -- Each member is placed in front of those behind it, since it is smaller than all of them.
  induction members with
  | nil => rfl
  | cons first rest ih =>
    obtain ⟨below, tail⟩ := List.pairwise_cons.mp ordered
    change place first (collect rest).toList = first :: rest
    rw [ih tail]
    cases rest with
    | nil => rfl
    | cons second rest => rw [place, below second (.head _)]

/-- Collecting commutes with a map that keeps the order. -/
theorem toList_collect_map [Ord β] [Std.TransOrd β] {f : α → β}
    (agree : ∀ a b, compare (f a) (f b) = compare a b) (members : List α) :
    (collect (members.map f)).toList = (collect members).toList.map f := by
  -- The members are placed one by one on both sides.
  induction members with
  | nil => rfl
  | cons first rest ih =>
    change place (f first) (collect (rest.map f)).toList = (place first (collect rest).toList).map f
    rw [ih, place_map agree]

/-- A member that is greater than all others is placed behind them. -/
theorem place_of_greater {a : α} {members : List α} (above : ∀ b ∈ members, compare b a = .lt) :
    place a members = members ++ [a] := by
  -- Placing passes every smaller member, so it runs to the end of the list.
  induction members with
  | nil => rfl
  | cons first rest ih =>
    have greater : compare a first = .gt := Std.OrientedCmp.gt_iff_lt.mpr (above first (.head _))
    rw [place, greater, ih fun b later => above b (.tail _ later)]
    rfl

/-- Members that stand in order behind those of a set are added behind them. -/
theorem toList_insertAll {s : SortedSet α} {members : List α}
    (ordered : (s.toList ++ members).Pairwise fun a b => compare a b = .lt) :
    (s.insertAll members).toList = s.toList ++ members := by
  -- Each member is greater than all that are there when its turn comes.
  induction members generalizing s with
  | nil => simp [insertAll]
  | cons first rest ih =>
    have above : ∀ b ∈ s.toList, compare b first = .lt := fun b member =>
      (List.pairwise_append.mp ordered).2.2 b member first (.head _)
    have step : (s.insert first).toList = s.toList ++ [first] := place_of_greater above
    have ordered' : ((s.insert first).toList ++ rest).Pairwise fun a b => compare a b = .lt := by
      rwa [step, List.append_assoc]
    rw [insertAll, List.foldl_cons]
    exact (ih ordered').trans (by rw [step, List.append_assoc]; rfl)

/-- A set contains all that was added to it, what it contained before, and nothing else. -/
theorem contains_insertAll {s : SortedSet α} {members : List α} {a : α} :
    (s.insertAll members).contains a = true ↔
      s.contains a = true ∨ ∃ b ∈ members, compare a b = .eq := by
  -- The members are added one by one.
  induction members generalizing s with
  | nil => simp [insertAll]
  | cons first rest ih =>
    rw [insertAll, List.foldl_cons]
    refine ih.trans ?_
    simp only [contains_insert, List.mem_cons, exists_eq_or_imp]
    rw [or_comm (a := compare a first = .eq), or_assoc]

/-- Where only what is the same compares equal, a set has what was added to it, what it had before,
and nothing else. -/
theorem mem_insertAll [Std.LawfulEqOrd α] {s : SortedSet α} {members : List α} {a : α} :
    a ∈ (s.insertAll members).toList ↔ a ∈ s.toList ∨ a ∈ members := by
  -- Membership and containment agree here, so this is the law for containment read again.
  simp only [← contains_iff_mem, contains_insertAll, Std.LawfulEqOrd.compare_eq_iff_eq,
    exists_eq_right']

/-- Sets with the same members are the same set, since both stand in order. -/
theorem ext_mem {s t : SortedSet α} (same : ∀ a, a ∈ s.toList ↔ a ∈ t.toList) : s = t := by
  -- Strictly ordered lists have no duplicates, so the same members make them permutations, and an
  -- ordered permutation of an ordered list is that list.
  have distinct : ∀ u : SortedSet α, u.toList.Nodup := fun u =>
    u.ordered.imp fun {a b} less equal => by simp [equal, Std.ReflCmp.compare_self] at less
  have permuted := (List.perm_ext_iff_of_nodup (distinct s) (distinct t)).mpr same
  refine ext (permuted.eq_of_pairwise (fun a b _ _ less greater => ?_) s.ordered t.ordered)
  simp [Std.OrientedCmp.gt_iff_lt.mpr greater] at less

/-- A set is the set of its members. -/
theorem ofList_toList (s : SortedSet α) : ofList s.toList = s :=
  -- Members in ascending order are each placed at the end.
  ext (toList_insertAll s.ordered)

end SortedSet

section Entries

variable {κ : Type u} {ν : Type v} {entries others : List (κ × ν)}

/-- Entries with the same keys are the same if one look-up finds the value of each of them. -/
theorem entries_eq_of_found {find : κ → Option ν}
    (keys : entries.map Prod.fst = others.map Prod.fst)
    (found : ∀ e ∈ entries, find e.1 = some e.2) (also : ∀ e ∈ others, find e.1 = some e.2) :
    entries = others := by
  -- Entries are their keys together with what is found for these.
  have own : ∀ list : List (κ × ν), (∀ e ∈ list, find e.1 = some e.2) →
      list.map (fun e => (e.1, some e.2)) = (list.map Prod.fst).map fun k => (k, find k) := by
    intro list held
    rw [List.map_map]
    exact List.map_congr_left fun e member => Prod.ext rfl (held e member).symm
  have injective : ∀ e e' : κ × ν, (e.1, some e.2) = (e'.1, some e'.2) → e = e' := by
    intro e e' same
    simpa [Prod.ext_iff] using same
  refine (List.map_inj_right injective).mp ?_
  rw [own _ found, own _ also, keys]

/-- Giving entries the values that they have changes nothing. -/
theorem mapEntries_eq_self {f : κ × ν → ν} (same : ∀ e ∈ entries, f e = e.2) :
    (entries.map fun e => (e.1, f e)) = entries := by
  -- An entry is its key and its value.
  have kept : ∀ e ∈ entries, (e.1, f e) = e := fun e member => Prod.ext rfl (same e member)
  exact (List.map_congr_left kept).trans (List.map_id' _)

end Entries

namespace SortedMap

variable {κ : Type u} {ν : Type v} {μ : Type w} [Ord κ]

/-- A map contains the keys that it holds something for. -/
theorem contains_eq_isSome_get? (m : SortedMap κ ν) (k : κ) : m.contains k = (m.get? k).isSome := by
  -- Both ask `find?`, and only one of them drops what was found.
  rw [contains, get?, Option.isSome_map]

/-- Values passed through a function are held for the same keys. -/
@[simp] theorem get?_map (m : SortedMap κ ν) (f : ν → μ) (k : κ) :
    (m.map f).get? k = (m.get? k).map f := by
  -- The keys stay, so the same entry is found.
  simp [get?, find?, map, List.find?_map, Function.comp_def]

/-- An update keeps every entry, up to what it makes of the value at its key. -/
theorem exists_mem_upsert {k : κ} {f : Option ν → ν} {entries : List (κ × ν)} {e : κ × ν}
    (member : e ∈ entries) :
    ∃ kept ∈ upsert k f entries, kept.1 = e.1 ∧ (kept.2 = e.2 ∨ kept.2 = f (some e.2)) := by
  -- The cases are those of the update: before the first entry, at it, or further on.
  induction entries with
  | nil => cases member
  | cons first rest ih =>
    obtain ⟨held, value⟩ := first
    rw [upsert]
    split
    · exact ⟨e, .tail _ member, rfl, .inl rfl⟩
    · rcases List.mem_cons.mp member with rfl | later
      · exact ⟨_, .head _, rfl, .inr rfl⟩
      · exact ⟨e, .tail _ later, rfl, .inl rfl⟩
    · rcases List.mem_cons.mp member with rfl | later
      · exact ⟨_, .head _, rfl, .inl rfl⟩
      · obtain ⟨kept, there, same⟩ := ih later
        exact ⟨kept, .tail _ there, same⟩

variable [Std.TransOrd κ]

/-- A look-up does not depend on how a key is spelled. -/
theorem find?_congr {m : SortedMap κ ν} {k k' : κ} (same : compare k k' = .eq) :
    m.find? k = m.find? k' := by
  -- The predicates by which the entries are searched are equal functions.
  unfold find?
  congr 1
  funext e
  rw [Std.TransCmp.congr_left same]

/-- A look-up does not depend on how a key is spelled. -/
theorem get?_congr {m : SortedMap κ ν} {k k' : κ} (same : compare k k' = .eq) :
    m.get? k = m.get? k' := by
  -- A look-up is what `find?` finds, less the key.
  rw [get?, get?, find?_congr same]

/-- Every entry is found under its own key. -/
theorem find?_of_mem {m : SortedMap κ ν} {e : κ × ν} (member : e ∈ m.entries) :
    m.find? e.1 = some e := by
  -- The entries before it have smaller keys, so the search passes over them.
  obtain ⟨before, after, split⟩ := List.append_of_mem member
  have ordered := m.ordered
  rw [split] at ordered
  have below : ∀ b ∈ before, compare b.1 e.1 = .lt := fun b there =>
    (List.pairwise_append.mp ordered).2.2 b there e (.head _)
  rw [find?, split, List.find?_append, List.find?_eq_none.mpr]
  · simp [Std.ReflCmp.compare_self]
  · intro b there
    have greater := Std.OrientedCmp.gt_iff_lt.mpr (below b there)
    simp [greater]

/-- What is held for the key of an entry is the value of the entry. -/
theorem get?_of_mem {m : SortedMap κ ν} {e : κ × ν} (member : e ∈ m.entries) :
    m.get? e.1 = some e.2 := by
  -- The entry itself is found.
  rw [get?, find?_of_mem member]
  rfl

/-- What is held for a key stands in an entry whose key compares equal. -/
theorem get?_eq_some_iff {m : SortedMap κ ν} {k : κ} {value : ν} :
    m.get? k = some value ↔ ∃ held, compare k held = .eq ∧ (held, value) ∈ m.entries := by
  -- From an entry that stands there, the look-up of its own key finds it, and then the look-up of
  -- every spelling of that key.
  constructor
  · intro found
    obtain ⟨e, located, rfl⟩ := Option.map_eq_some_iff.mp found
    have same := List.find?_some located
    simp only [beq_iff_eq] at same
    exact ⟨e.1, same, List.mem_of_find?_eq_some located⟩
  · rintro ⟨held, same, member⟩
    rw [get?_congr same, get?_of_mem member]

/-- Where only the same keys compare equal, the entries are what is held for their keys. -/
theorem mem_entries_iff [Std.LawfulEqOrd κ] {m : SortedMap κ ν} {k : κ} {value : ν} :
    (k, value) ∈ m.entries ↔ m.get? k = some value := by
  -- The entry that answers has a key that compares equal, which here is the key itself.
  rw [get?_eq_some_iff]
  constructor
  · intro member
    exact ⟨k, Std.ReflCmp.compare_self, member⟩
  · rintro ⟨held, same, member⟩
    rwa [Std.LawfulEqOrd.compare_eq_iff_eq.mp same]

/-- Maps with the same keys that hold the same for every key are the same map. -/
theorem ext_get? {a b : SortedMap κ ν} (keys : a.keys = b.keys)
    (held : ∀ k, a.get? k = b.get? k) : a = b :=
  -- Both maps find the values of their own entries, and so does the look-up of one of them.
  ext (entries_eq_of_found keys (fun _ => get?_of_mem)
    fun e member => (held e.1).trans (get?_of_mem member))

/-- A change of the value at one key is seen under that key only. -/
theorem get?_modify (m : SortedMap κ ν) (k k' : κ) (f : ν → ν) :
    (m.modify k f).get? k' = (m.get? k').map fun value =>
      if compare k k' = .eq then f value else value := by
  -- The entry that is found has a key like `k'`, and is changed if that is like `k`.
  simp only [get?, find?, modify, List.find?_map, Function.comp_def, Option.map_map]
  cases found : m.entries.find? (fun e => compare k' e.1 == .eq) with
  | none => rfl
  | some e =>
    have same := List.find?_some found
    simp only [beq_iff_eq] at same
    simp [Std.TransCmp.congr_right (a := k) same]

/-- A change that leaves the value at its key alone changes nothing. -/
theorem modify_eq_self {m : SortedMap κ ν} {k : κ} {f : ν → ν}
    (same : ∀ value, m.get? k = some value → f value = value) : m.modify k f = m := by
  -- What is held for the key is held for every key like it.
  refine ext (mapEntries_eq_self fun e member => ?_)
  by_cases here : compare k e.1 = .eq
  · simp [here, same e.2 ((get?_congr here).trans (get?_of_mem member))]
  · simp [here]

/-- An update of entries is seen under its key, and leaves the first entries of other keys alone. -/
theorem find?_upsert {k k' : κ} {f : Option ν → ν} {entries : List (κ × ν)}
    (ordered : entries.Pairwise fun a b => compare a.1 b.1 = .lt) :
    ((upsert k f entries).find? fun e => compare k' e.1 == .eq).map Prod.snd =
      if compare k' k = .eq then
        some (f ((entries.find? fun e => compare k e.1 == .eq).map Prod.snd))
      else (entries.find? fun e => compare k' e.1 == .eq).map Prod.snd := by
  -- Each branch of the update is looked at from a key that is like the new one and from others.
  induction entries with
  | nil =>
    by_cases same : compare k' k = .eq <;> simp [upsert, same]
  | cons first rest ih =>
    obtain ⟨held, value⟩ := first
    obtain ⟨below, tail⟩ := List.pairwise_cons.mp ordered
    rw [upsert]
    split
    · -- The key is new, since it is smaller than all the others.
      rename_i less
      have absent : rest.find? (fun e => compare k e.1 == .eq) = none := by
        refine List.find?_eq_none.mpr fun e member => ?_
        simp [Std.TransCmp.lt_trans less (below e member)]
      by_cases same : compare k' k = .eq
      · simp [same, less, absent]
      · simp [same]
    · -- The first entry is the one that is changed.
      rename_i equal
      by_cases same : compare k' k = .eq
      · have also : compare k' held = .eq := Std.TransCmp.eq_trans same equal
        simp [same, equal, also]
      · have other : compare k' held ≠ .eq := fun also =>
          same (Std.TransCmp.eq_trans also (Std.OrientedCmp.eq_symm equal))
        simp [same, other]
    · -- The change is further on, so that the first entry stays.
      rename_i greater
      by_cases here : compare k' held = .eq
      · have other : compare k' k ≠ .eq := fun same => by
          rw [Std.TransCmp.congr_left same, greater] at here
          cases here
        simp [here, other]
      · simp [here, greater, ih tail]

/-- What is held after an update. -/
theorem get?_alter (m : SortedMap κ ν) (k k' : κ) (f : Option ν → ν) :
    (m.alter k f).get? k' = if compare k' k = .eq then some (f (m.get? k)) else m.get? k' :=
  -- Only the entry at the key is touched, which the law for `upsert` says of the list.
  find?_upsert m.ordered

/-- A key that is greater than all others gets its entry behind them. -/
theorem upsert_of_greater {k : κ} {f : Option ν → ν} {entries : List (κ × ν)}
    (above : ∀ e ∈ entries, compare e.1 k = .lt) :
    upsert k f entries = entries ++ [(k, f none)] := by
  -- The walk passes every smaller key and appends at the end.
  induction entries with
  | nil => rfl
  | cons first rest ih =>
    obtain ⟨held, value⟩ := first
    have greater : compare k held = .gt :=
      Std.OrientedCmp.gt_iff_lt.mpr (above (held, value) (.head _))
    rw [upsert, greater]
    simp only [ih fun e later => above e (.tail _ later), List.cons_append]

/-- Updates at keys that stand in order behind those of a map add entries behind its own. -/
theorem entries_foldl_alter {σ : Type w} {f : σ → Option ν → ν} {m : SortedMap κ ν}
    {updates : List (κ × σ)}
    (ordered : (m.keys ++ updates.map Prod.fst).Pairwise fun a b => compare a b = .lt) :
    (updates.foldl (fun m e => m.alter e.1 (f e.2)) m).entries =
      m.entries ++ updates.map fun e => (e.1, f e.2 none) := by
  -- Each key is greater than all that are there when its turn comes.
  induction updates generalizing m with
  | nil => simp
  | cons first rest ih =>
    have above : ∀ e ∈ m.entries, compare e.1 first.1 = .lt := fun e member =>
      (List.pairwise_append.mp ordered).2.2 e.1 (List.mem_map_of_mem member) first.1 (.head _)
    have step : (m.alter first.1 (f first.2)).entries = m.entries ++ [(first.1, f first.2 none)] :=
      upsert_of_greater above
    have ordered' : ((m.alter first.1 (f first.2)).keys ++ rest.map Prod.fst).Pairwise
        fun a b => compare a b = .lt := by
      simpa [keys, step] using ordered
    rw [List.foldl_cons, ih ordered', step]
    simp

/-- A map is the map of its entries. -/
theorem ofList_entries (m : SortedMap κ ν) : ofList m.entries = m := by
  -- Entries in ascending order are put in one after another, each behind the last.
  have ordered : (({} : SortedMap κ ν).keys ++ m.entries.map Prod.fst).Pairwise
      fun a b => compare a b = .lt :=
    List.pairwise_map.mpr m.ordered
  refine ext ((entries_foldl_alter (f := fun value _ => value) ordered).trans ?_)
  simp

/-- An update that leaves the value at its key alone changes nothing. -/
theorem upsert_eq_self {k : κ} {f : Option ν → ν} {entries : List (κ × ν)} {value : ν}
    (ordered : entries.Pairwise fun a b => compare a.1 b.1 = .lt)
    (found : (entries.find? fun e => compare k e.1 == .eq).map Prod.snd = some value)
    (same : f (some value) = value) : upsert k f entries = entries := by
  -- The search for the key ends at the entry that is there.
  induction entries with
  | nil => cases found
  | cons first rest ih =>
    obtain ⟨held, stored⟩ := first
    obtain ⟨below, tail⟩ := List.pairwise_cons.mp ordered
    rw [upsert]
    split
    · -- The key would be smaller than all the others, and could not be found.
      rename_i less
      have absent : rest.find? (fun e => compare k e.1 == .eq) = none := by
        refine List.find?_eq_none.mpr fun e member => ?_
        simp [Std.TransCmp.lt_trans less (below e member)]
      simp [less, absent] at found
    · rename_i equal
      simp only [List.find?_cons, equal, beq_self_eq_true, Option.map_some,
        Option.some.injEq] at found
      rw [found, same]
    · rename_i greater
      rw [ih tail (by simpa [greater] using found)]

/-- An update that leaves the value at its key alone changes nothing. -/
theorem alter_eq_self {m : SortedMap κ ν} {k : κ} {f : Option ν → ν} {value : ν}
    (held : m.get? k = some value) (same : f (some value) = value) : m.alter k f = m :=
  -- The walk stops at the entry that is there and writes the same value back.
  ext (upsert_eq_self m.ordered held same)

/-- Passing every value through a function that leaves it alone changes nothing. -/
theorem map_eq_self {m : SortedMap κ ν} {f : ν → ν}
    (same : ∀ k value, m.get? k = some value → f value = value) : m.map f = m :=
  -- Every value is held for its key.
  ext (mapEntries_eq_self fun e member => same e.1 e.2 (get?_of_mem member))

end SortedMap

namespace DeclaredMap

variable {κ : Type u} {ν : Type v} [DecidableEq κ]

/-- What is declared under a key stands in the entry of that key. -/
theorem get?_eq_some_iff {m : DeclaredMap κ ν} {k : κ} {value : ν} :
    m.get? k = some value ↔ (k, value) ∈ m.entries := by
  -- Keys are distinct, so the entry found first is the only one.
  constructor
  · intro found
    obtain ⟨e, located, rfl⟩ := Option.map_eq_some_iff.mp found
    have same := List.find?_some located
    simp only [decide_eq_true_eq] at same
    subst same
    exact List.mem_of_find?_eq_some located
  · intro member
    obtain ⟨before, after, split⟩ := List.append_of_mem member
    have distinct := m.distinct
    rw [split, List.map_append, List.map_cons] at distinct
    have absent : ∀ e ∈ before, e.1 ≠ k := fun e there same =>
      (List.nodup_append.mp distinct).2.2 e.1 (List.mem_map_of_mem there) k (.head _) same
    rw [get?, split, List.find?_append, List.find?_eq_none.mpr (by simpa using absent)]
    simp

/-- Maps with the same keys in the same order that hold the same for every key are the same map. -/
theorem ext_get? {a b : DeclaredMap κ ν} (keys : a.keys = b.keys)
    (held : ∀ k, a.get? k = b.get? k) : a = b :=
  -- Both maps find the values of their own entries, and so does the look-up of one of them.
  ext (entries_eq_of_found keys (fun _ => get?_eq_some_iff.mpr)
    fun e member => (held e.1).trans (get?_eq_some_iff.mpr member))

/-- Values passed through a function are declared under the same keys. -/
@[simp] theorem get?_map (m : DeclaredMap κ ν) (f : ν → ν) (k : κ) :
    (m.map f).get? k = (m.get? k).map f := by
  -- The keys stay, so the same entry is found.
  simp [get?, map, List.find?_map, Function.comp_def]

/-- A change of the value under one key is seen under that key only. -/
theorem get?_modify (m : DeclaredMap κ ν) (k k' : κ) (f : ν → ν) :
    (m.modify k f).get? k' = (m.get? k').map fun value => if k' = k then f value else value := by
  -- What is found under a key stands in an entry with that key.
  simp only [get?, modify, List.find?_map, Function.comp_def, Option.map_map]
  cases found : m.entries.find? (fun e => decide (e.1 = k')) with
  | none => rfl
  | some e =>
    have same := List.find?_some found
    simp only [decide_eq_true_eq] at same
    simp [same]

/-- A change that leaves the value under its key alone changes nothing. -/
theorem modify_eq_self {m : DeclaredMap κ ν} {k : κ} {f : ν → ν}
    (same : ∀ value, m.get? k = some value → f value = value) : m.modify k f = m := by
  -- Only the entry of the key is changed, to the value that it has.
  refine ext (mapEntries_eq_self fun e member => ?_)
  split
  · rename_i here
    subst here
    exact same e.2 (get?_eq_some_iff.mpr member)
  · rfl

/-- A declaration is seen under its own key only. -/
theorem get?_insert (m : DeclaredMap κ ν) (k k' : κ) (value : ν) :
    (m.insert k value).get? k' = if k' = k then some value else m.get? k' := by
  rw [insert]
  split
  · -- The value under a key that is declared already is changed.
    rename_i declared
    rw [get?_modify]
    split
    · rename_i same
      obtain ⟨⟨_, held⟩, member, rfl⟩ := List.mem_map.mp declared
      rw [same, get?_eq_some_iff.mpr member]
      rfl
    · exact Option.map_id_apply
  · -- A new key stands behind all others.
    split
    · rename_i same
      exact get?_eq_some_iff.mpr (by simp [same])
    · rename_i other
      have last : [(k, value)].find? (fun e => decide (e.1 = k')) = none := by
        simp [Ne.symm other]
      simp only [get?, List.find?_append, last, Option.or_none]

/-- Declarations under new and distinct keys add entries behind those of a map. -/
theorem entries_foldl_insert {m : DeclaredMap κ ν} {declared : List (κ × ν)}
    (distinct : (m.keys ++ declared.map Prod.fst).Nodup) :
    (declared.foldl (fun m e => m.insert e.1 e.2) m).entries = m.entries ++ declared := by
  -- Each key is new when its turn comes.
  induction declared generalizing m with
  | nil => simp
  | cons first rest ih =>
    have new : first.1 ∉ m.keys := fun held =>
      (List.nodup_append.mp distinct).2.2 first.1 held first.1 (.head _) rfl
    have step : (m.insert first.1 first.2).entries = m.entries ++ [first] := by
      rw [insert, dif_neg new]
    have distinct' : ((m.insert first.1 first.2).keys ++ rest.map Prod.fst).Nodup := by
      simpa [keys, step] using distinct
    rw [List.foldl_cons, ih distinct', step]
    simp

/-- A map is the map of its entries. -/
theorem ofList_entries (m : DeclaredMap κ ν) : ofList m.entries = m :=
  -- All keys are distinct, so each entry is declared behind the ones before it.
  ext (entries_foldl_insert m.distinct)

end DeclaredMap

end BuildGraph
