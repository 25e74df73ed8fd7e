import BuildGraph.Proofs.ByteOrder
import BuildGraph.Proofs.Identity
import BuildGraph.Workspace.Digest

/-! In whatever way targets are compared or hashed, nothing is read of them but what tells them
apart, and all the ways agree. -/

namespace BuildGraph

namespace Component

/-- The root stands before the current place, that before the parent, and that before all names,
which stand in the order of their bytes. -/
def Before : Component → Component → Prop
  -- Names are compared by their bytes, and steps of different kinds by the kinds.
  | named a, named b => Text.bytes a < Text.bytes b
  | a, b => a.rank < b.rank

/-- One step is smaller than another exactly when it stands before it. -/
theorem compare_lt_iff {a b : Component} : compare a b = .lt ↔ a.Before b := by
  change compareLex (compareOn rank) (compareOn label) a b = .lt ↔ _
  simp only [compareLex, compareOn, Ordering.then_eq_lt]
  -- Of one kind are two names, and a step and itself.
  cases a <;> cases b <;> simp [Before, rank, label, Text.bytes_lt_iff, compare_lt_iff_lt]

/-- Lists of steps are compared by the first steps that differ, and a shorter list stands before
those that continue it. -/
theorem compare_list_lt_iff {a b : List Component} :
    compare a b = .lt ↔ List.Lex Before a b := by
  change List.compareLex compare a b = .lt ↔ _
  -- The induction is on the steps up to the first that differ.
  induction a generalizing b with
  | nil => cases b <;> simp [List.compareLex_nil_nil, List.compareLex_nil_cons]
  | cons c cs ih =>
    cases b with
    | nil => simp [List.compareLex_cons_nil]
    | cons d ds =>
      rw [List.compareLex_cons_cons, Ordering.then_eq_lt, compare_lt_iff, ih,
        Std.LawfulEqOrd.compare_eq_iff_eq, List.cons_lex_cons_iff]

/-- What is read of a step where it is hashed. -/
def reading (c : Component) : List (Nat ⊕ String) :=
  -- The texts that are hashed are told apart from the numbers.
  match c with
  | named name => [.inl c.rank, .inr name]
  | _ => [.inl c.rank]

/-- What is read of a step is told apart from what follows it. -/
theorem reading_append_inj {a b : Component} {x y : List (Nat ⊕ String)} :
    a.reading ++ x = b.reading ++ y ↔ a = b ∧ x = y := by
  -- A step begins with its rank, and only named steps have more to read.
  cases a <;> cases b <;> simp [reading, rank]

/-- The steps of a path can be recovered from what is read of them. -/
theorem flatMap_reading_injective : (List.flatMap reading).Injective := by
  intro a b same
  -- The induction is on the steps, each of which begins with its kind.
  induction a generalizing b with
  | nil => cases b with
    | nil => rfl
    | cons d ds => cases d <;> cases same
  | cons c cs ih => cases b with
    | nil => cases c <;> cases same
    | cons d ds =>
      obtain ⟨rfl, rest⟩ := reading_append_inj.mp same
      rw [ih rest]

end Component

namespace Hasher

/-- The hasher that keeps all that it reads. -/
def keeping : Hasher (List (Nat ⊕ String)) where
  -- It forgets nothing, so equal digests mean equal readings.
  number kept n := kept ++ [.inl n]
  text kept s := kept ++ [.inr s]

/-- The steps of a path are kept one behind the other. -/
theorem digest_path_keeping (kept : List (Nat ⊕ String)) (p : Path) :
    p.digest keeping kept = kept ++ p.components.flatMap Component.reading := by
  rw [Path.digest]
  -- The induction is on the steps, with any start.
  induction p.components generalizing kept with
  | nil => simp
  | cons c cs ih =>
    have step : c.digest keeping kept = kept ++ c.reading := by
      cases c <;> simp [Component.digest, Component.reading, keeping]
    rw [List.foldl_cons, ih, step, List.flatMap_cons, List.append_assoc]

end Hasher

namespace TargetId

variable {a b : TargetId}

/-- One identity stands before another by the steps of their paths, and where these are the same, by
the bytes of their names. -/
def Before (a b : TargetId) : Prop :=
  -- The lexicographic order is that of the standard library, and not the one that steps are
  -- compared with.
  List.Lex Component.Before a.path.components b.path.components ∨
    a.path.components = b.path.components ∧ Text.bytes a.name < Text.bytes b.name

/-- One identity is smaller than another exactly when it stands before it. -/
theorem compare_lt_iff : compare a b = .lt ↔ a.Before b := by
  -- The order compares paths step by step first, and names byte by byte next.
  change (compare a.path b.path).then (compare a.name b.name) = .lt ↔ _
  rw [Ordering.then_eq_lt, Path.compare_eq_iff, compare_lt_iff_lt, Before, Text.bytes_lt_iff]
  exact or_congr_left Component.compare_list_lt_iff

/-- The partial order of identities is their order. -/
theorem partialCompare_eq (a b : TargetId) : a.partialCompare b = some (compare a b) := by
  change _ = some ((compare a.path b.path).then (compare a.name b.name))
  -- The names count where the paths compare equal.
  rw [partialCompare, Path.partialCompare]
  cases compare a.path b.path <;> rfl

/-- Identities are hashed alike, whatever the hasher, exactly when nothing tells them apart. -/
theorem digest_eq_iff : (∀ (σ : Type) (h : Hasher σ) (state : σ),
    a.digest h state = b.digest h state) ↔ a.identity = b.identity := by
  rw [identity, identity, Prod.mk.injEq]
  constructor
  · intro same
    -- The hasher that keeps all has read the steps and then the name.
    have read := same _ .keeping []
    simp only [digest, Hasher.digest_path_keeping] at read
    obtain ⟨steps, names⟩ := List.append_inj' read rfl
    exact ⟨Component.flatMap_reading_injective steps, by simpa using names⟩
  · rintro ⟨steps, names⟩ σ h state
    rw [digest, digest, Path.digest, Path.digest, steps, names]

end TargetId

namespace OwnedTarget

/-- Targets are hashed as their identities are. -/
theorem digest_id (h : Hasher σ) (state : σ) (t : OwnedTarget) :
    t.digest h state = t.id.digest h state :=
  -- Both read the same path and the same name.
  rfl

/-- All ways of comparing and hashing two targets agree with one another, and with those of their
identities. -/
structure Coherent (a b : OwnedTarget) : Prop where
  alike_id : (a == b) = (a.id == b.id)
  alike : (a == b) = true ↔ a.path.components = b.path.components ∧ a.name = b.name
  compare_id : compare a b = compare a.id b.id
  equal : compare a b = .eq ↔ (a == b) = true
  less : compare a b = .lt ↔ a.id.Before b.id
  greater : compare a b = .gt ↔ b.id.Before a.id
  partially : a.partialCompare b = some (compare a b)
  partially_id : a.partialCompare b = a.id.partialCompare b.id
  -- A hasher that keeps all it reads tells apart what is not alike.
  hashed : (∀ (σ : Type) (h : Hasher σ) (state : σ), a.digest h state = b.digest h state) ↔
    (a == b) = true
  hashed_id : ∀ {σ : Type} (h : Hasher σ) (state : σ), a.digest h state = a.id.digest h state

/-- All ways of comparing and hashing any two targets agree. -/
theorem coherent (a b : OwnedTarget) : a.Coherent b where
  -- Each field compares two readings of the same path and name.
  alike_id := rfl
  alike := TargetId.beq_iff.trans Prod.mk_inj
  compare_id := rfl
  equal := compare_eq_iff.trans TargetId.beq_iff.symm
  less := TargetId.compare_lt_iff
  greater := Std.OrientedCmp.gt_iff_lt.trans TargetId.compare_lt_iff
  partially := rfl
  partially_id := (TargetId.partialCompare_eq a.id b.id).symm
  hashed := by
    simp only [digest_id]
    exact TargetId.digest_eq_iff.trans TargetId.beq_iff.symm
  hashed_id h state := digest_id h state a

/-- Whatever else they hold, targets are compared and hashed coherently, their order is total, it is
antisymmetric up to their likeness and transitive, and the node for a target stands for the
identities that are like its own, and for no others. -/
theorem lawfully_ordered (a b c : OwnedTarget) :
    a.Coherent b ∧
    ((compare a b).isLE = true ∨ (compare b a).isLE = true) ∧
    ((compare a b).isLE = true → (compare b a).isLE = true → (a == b) = true) ∧
    ((compare a b).isLE = true → (compare b c).isLE = true → (compare a c).isLE = true) ∧
    ∀ id, a.toDependency.isTarget id = true ↔ (a.id == id) = true := by
  refine ⟨coherent a b, ?_, fun below above => ?_, Std.TransCmp.isLE_trans, fun id => ?_⟩
  · -- Either the first is greater, and then the second is smaller, or it is not.
    have swapped : compare b a = (compare a b).swap := Std.OrientedCmp.eq_swap
    rw [swapped]
    cases compare a b <;> simp
  · exact (coherent a b).equal.mp (Std.OrientedCmp.isLE_antisymm below above)
  · rw [Dependency.isTarget_iff_compare, TargetId.beq_iff, toDependency,
      TargetId.compare_toDependency, eq_comm]

end OwnedTarget

namespace Sample

/-- An application. -/
def plain : OwnedTarget where
  project := { path := ⟨"/A/"⟩, name := "A" }
  target := { name := "x", product := .app }

/-- What goes by the same name in another spelling of the place, with other contents. -/
def disguised : OwnedTarget where
  -- Everything but the identity is different.
  project := { path := ⟨"//A/."⟩, name := "B", origin := .external }
  target := { name := "x", product := .framework, pruned := true }

/-- A target of a project further on. -/
def beyond : OwnedTarget where
  -- The step to the parent is not carried out, so this is another place.
  project := { path := ⟨"/A/.."⟩, name := "A" }
  target := { name := "x", product := .app }

end Sample

/-- Two targets are alike though they have little in common; the second comes before a third, and so
does the first. -/
theorem OwnedTarget.lawfully_ordered_of_sample :
    Sample.plain ≠ Sample.disguised ∧ (Sample.plain == Sample.disguised) = true ∧
    compare Sample.disguised Sample.beyond = .lt ∧
    (compare Sample.plain Sample.beyond).isLE = true ∧
    Sample.plain.toDependency.isTarget Sample.disguised.id = true := by
  -- The general statement is asked of the three targets for all but what it assumes.
  have alike : (Sample.plain == Sample.disguised) = true := by decide
  have before : compare Sample.disguised Sample.beyond = .lt := by decide
  obtain ⟨coherent, _, _, transitive, stands⟩ :=
    lawfully_ordered Sample.plain Sample.disguised Sample.beyond
  refine ⟨by decide, alike, before, transitive ?_ ?_, (stands _).mpr (coherent.alike_id ▸ alike)⟩
  · rw [coherent.equal.mpr alike, Ordering.isLE_eq]
  · rw [before, Ordering.isLE_lt]

end BuildGraph
