import BuildGraph.Ledger
import BuildGraph.Proofs.Collections
import BuildGraph.Workspace.Query

/-! Targets are told apart by the steps of their projects' paths and by their names, and whatever is
looked up depends on no more than that. -/

namespace BuildGraph

/-- The steps of the path of a target's project, and the target's name. -/
abbrev Identity := List Component × String

namespace TargetId

/-- What tells a target apart from others. -/
def identity (id : TargetId) : Identity :=
  -- Two spellings of a path give one identity, so identities can be compared by equality.
  (id.path.components, id.name)

/-- Identities compare equal exactly when nothing tells them apart. -/
theorem compare_eq_iff {a b : TargetId} : compare a b = .eq ↔ a.identity = b.identity := by
  -- The order compares paths first and names next.
  change compareLex (compareOn path) (compareOn name) a b = .eq ↔ _
  rw [compareLex_eq_eq, identity, identity, Prod.mk.injEq]
  exact and_congr Path.compare_eq_iff
    (Std.LawfulEqOrd.compare_eq_iff_eq (a := a.name) (b := b.name))

/-- Likeness of identities agrees with their order. -/
theorem beq_iff {a b : TargetId} : (a == b) = true ↔ a.identity = b.identity := by
  -- Likeness compares paths and names side by side.
  change (a.path == b.path && a.name == b.name) = true ↔ _
  rw [Bool.and_eq_true, Path.beq_iff_compare, Path.compare_eq_iff, beq_iff_eq, identity, identity,
    Prod.mk.injEq]

/-- The nodes of two targets compare equal exactly when nothing tells the targets apart. -/
theorem compare_toDependency {a b : TargetId} :
    compare a.toDependency b.toDependency = .eq ↔ a.identity = b.identity := by
  -- Of the four things that nodes are compared by, two are the same for all targets.
  change compareLex (compareOn Dependency.rank) (compareLex (compareOn Dependency.label)
    (compareLex (compareOn Dependency.place) (compareOn Dependency.linking))) _ _ = .eq ↔ _
  simp only [compareLex_eq_eq, identity, Prod.mk.injEq]
  constructor
  · rintro ⟨_, names, paths, _⟩
    exact ⟨Path.compare_eq_iff.mp paths,
      (Std.LawfulEqOrd.compare_eq_iff_eq (a := a.name) (b := b.name)).mp names⟩
  · rintro ⟨paths, names⟩
    exact ⟨rfl, (Std.LawfulEqOrd.compare_eq_iff_eq (a := a.name) (b := b.name)).mpr names,
      Path.compare_eq_iff.mpr paths, rfl⟩

/-- A node compares equal to that of a target only if it stands for a target itself. -/
theorem targetId?_of_compare {id : TargetId} {node : Dependency}
    (same : compare id.toDependency node = .eq) : node.targetId?.isSome = true := by
  -- Nodes of different kinds have different ranks.
  have ranks : compareOn Dependency.rank id.toDependency node = .eq := (compareLex_eq_eq.mp same).1
  have ranks : Dependency.rank id.toDependency = node.rank :=
    Std.LawfulEqOrd.compare_eq_iff_eq.mp ranks
  cases node <;> simp_all [Dependency.rank, toDependency, Dependency.targetId?]

end TargetId

/-- A node stands for a target exactly when it names one that nothing tells apart from it. -/
theorem Dependency.isTarget_iff {node : Dependency} {id : TargetId} :
    node.isTarget id = true ↔ ∃ named, node.targetId? = some named ∧
      named.identity = id.identity := by
  -- Only the nodes of targets can stand for one.
  cases node with
  | target name path =>
    simp [isTarget, targetId?, TargetId.identity, Path.beq_iff_compare, Path.compare_eq_iff]
  | _ => simp [isTarget, targetId?]

/-- A node stands for a target exactly when it compares equal to the node of that target. -/
theorem Dependency.isTarget_iff_compare {node : Dependency} {id : TargetId} :
    node.isTarget id = true ↔ compare id.toDependency node = .eq := by
  cases node with
  | target name path =>
    -- The node is that of the target that it names.
    have named : Dependency.target name path = (⟨path, name⟩ : TargetId).toDependency := rfl
    rw [named, TargetId.compare_toDependency, ← named, isTarget_iff]
    simp [targetId?, eq_comm]
  | _ =>
    -- What compares equal to the node of a target names one.
    refine iff_of_false (by simp [isTarget]) fun same => ?_
    have named := TargetId.targetId?_of_compare same
    simp [targetId?] at named

/-- Which nodes stand for a target depends on its identity only. -/
theorem Dependency.isTarget_congr_id {a b : TargetId} (same : a.identity = b.identity)
    (node : Dependency) : node.isTarget a = node.isTarget b := by
  -- Standing for a target is said in terms of the identity.
  rw [Bool.eq_iff_iff, isTarget_iff, isTarget_iff, same]

/-- A node is the output of a target exactly when it belongs to one that nothing tells apart from
it, however it is linked. -/
theorem Dependency.isOutputOf_iff {node : Dependency} {id : TargetId} :
    node.isOutputOf id = true ↔ ∃ (owner : TargetId) (linking : Linking),
      node = .foreignOutput owner.name owner.path linking ∧ owner.identity = id.identity := by
  -- Only outputs can be the output of a target.
  cases node with
  | foreignOutput name path linking =>
    simp only [isOutputOf, Bool.and_eq_true, Path.beq_iff_compare, Path.compare_eq_iff, beq_iff_eq,
      foreignOutput.injEq, TargetId.identity, Prod.mk.injEq]
    constructor
    · rintro ⟨steps, names⟩
      exact ⟨⟨path, name⟩, linking, ⟨rfl, rfl, rfl⟩, steps, names⟩
    · rintro ⟨_, _, ⟨rfl, rfl, _⟩, steps, names⟩
      exact ⟨steps, names⟩
  | _ => simp [isOutputOf]

/-- Which nodes are the output of a target depends on its identity only. -/
theorem Dependency.isOutputOf_congr_id {a b : TargetId} (same : a.identity = b.identity)
    (node : Dependency) : node.isOutputOf a = node.isOutputOf b := by
  -- Being an output is said in terms of the identity.
  rw [Bool.eq_iff_iff, isOutputOf_iff, isOutputOf_iff, same]

/-- Paths of the same steps are like the same paths. -/
theorem Path.beq_congr {p q : Path} (same : p.components = q.components) (other : Path) :
    (p == other) = (q == other) := by
  -- Likeness of paths is equality of their steps.
  rw [Bool.eq_iff_iff, beq_iff_compare, beq_iff_compare, compare_eq_iff, compare_eq_iff, same]

/-- Nodes that compare equal are of one kind, and their names and the steps of their paths agree. -/
theorem Dependency.parts_of_compare {a b : Dependency} (same : compare a b = .eq) :
    a.rank = b.rank ∧ a.label = b.label ∧ a.place.components = b.place.components := by
  -- The order compares kinds, names, paths and links, one after another.
  obtain ⟨ranks, rest⟩ := compareLex_eq_eq.mp same
  obtain ⟨labels, rest⟩ := compareLex_eq_eq.mp rest
  obtain ⟨places, _⟩ := compareLex_eq_eq.mp rest
  exact ⟨Std.LawfulEqOrd.compare_eq_iff_eq.mp ranks, Std.LawfulEqOrd.compare_eq_iff_eq.mp labels,
    Path.compare_eq_iff.mp places⟩

/-- Of nodes that compare equal, both stand for a target or neither does. -/
theorem Dependency.isTarget_congr {a b : Dependency} (same : compare a b = .eq) (id : TargetId) :
    a.isTarget id = b.isTarget id := by
  -- The node of the target compares alike with both.
  rw [Bool.eq_iff_iff, isTarget_iff_compare, isTarget_iff_compare, Std.TransCmp.congr_right same]

/-- Of nodes that compare equal, both are outputs of a target or neither is. -/
theorem Dependency.isOutputOf_congr {a b : Dependency} (same : compare a b = .eq) (id : TargetId) :
    a.isOutputOf id = b.isOutputOf id := by
  obtain ⟨ranks, labels, places⟩ := parts_of_compare same
  -- Nodes of one rank are of one kind, and of these, outputs are told apart by name and path.
  cases a <;> cases b <;> simp_all [rank, label, place, isOutputOf]
  rw [Path.beq_congr places]

/-- A node is the output of a target exactly when it compares equal to the node for what the target
produces, linked in one way or another. -/
theorem Dependency.isOutputOf_iff_compare {node : Dependency} {id : TargetId} :
    node.isOutputOf id = true ↔
      ∃ linking, compare (Dependency.foreignOutput id.name id.path linking) node = .eq := by
  constructor
  · intro output
    obtain ⟨owner, linking, rfl, same⟩ := isOutputOf_iff.mp output
    obtain ⟨steps, names⟩ := Prod.mk.inj same
    refine ⟨linking, ?_⟩
    -- Of the four things that nodes are compared by, the kinds and the linkings are the same.
    change compareLex (compareOn rank) (compareLex (compareOn label)
      (compareLex (compareOn place) (compareOn Dependency.linking))) _ _ = .eq
    simp only [compareLex_eq_eq]
    exact ⟨rfl, Std.LawfulEqOrd.compare_eq_iff_eq.mpr names.symm,
      Path.compare_eq_iff.mpr steps.symm, Std.ReflCmp.compare_self⟩
  · rintro ⟨linking, same⟩
    rw [← isOutputOf_congr same]
    exact isOutputOf_iff.mpr ⟨id, linking, rfl, rfl⟩

namespace OwnedTarget

/-- What tells a target apart from others. -/
def identity (t : OwnedTarget) : Identity :=
  -- It does not depend on anything but the project's path and the target's name.
  t.id.identity

/-- Targets compare as their identities do. -/
theorem compare_id (a b : OwnedTarget) : compare a.id b.id = compare a b :=
  -- Targets are compared by nothing else.
  rfl

/-- Targets compare equal exactly when nothing tells them apart. -/
theorem compare_eq_iff {a b : OwnedTarget} : compare a b = .eq ↔ a.identity = b.identity :=
  -- It is a matter of their identities.
  TargetId.compare_eq_iff

end OwnedTarget

/-- A set of identities contains those that nothing tells apart from one of its members. -/
theorem SortedSet.contains_collect_id {ids : List TargetId} {id : TargetId} :
    (collect ids).contains id = true ↔ id.identity ∈ ids.map TargetId.identity := by
  -- Members are told by comparing, which is a matter of identities.
  simp only [contains_collect, TargetId.compare_eq_iff, List.mem_map]
  exact exists_congr fun _ => and_congr_right fun _ => eq_comm

/-- Collecting targets loses no identity and brings in none. -/
theorem SortedSet.mem_identity_collect {targets : List OwnedTarget} {k : Identity} :
    k ∈ (collect targets).toList.map OwnedTarget.identity ↔
      k ∈ targets.map OwnedTarget.identity :=
  -- Targets that compare equal have one identity.
  mem_map_collect fun _ _ => OwnedTarget.compare_eq_iff.mp

/-- Things that are made of the targets of a set, one of each at most, have different identities. -/
theorem SortedSet.apart_filterMap {α : Type} {f : OwnedTarget → Option α} {id : α → TargetId}
    (own : ∀ t a, f t = some a → id a = t.id) (s : SortedSet OwnedTarget) :
    (s.toList.filterMap f).Pairwise fun a b => (id a).identity ≠ (id b).identity := by
  -- The targets stand in order, so that none of them compares equal to another.
  refine s.ordered.filterMap f fun t u before a made b also same => ?_
  rw [own t a made, own u b also] at same
  have equal : compare t u = .eq := OwnedTarget.compare_eq_iff.mpr same
  simp [before] at equal

namespace Ledger

variable {l : Ledger}

/-- Whether a target is requested depends on its identity only. -/
theorem isRequested_congr {a b : TargetId} (same : a.identity = b.identity) :
    l.isRequested a = l.isRequested b := by
  -- Each request compares alike with both.
  have order : ∀ c, compare a c = compare b c := fun c =>
    Std.TransCmp.congr_left (TargetId.compare_eq_iff.mpr same)
  simp only [isRequested, SortedSet.contains, order]

/-- The targets of an explicit selection are requested, and no others. -/
theorem isRequested_recordRequested {ids : List TargetId} {id : TargetId} :
    (l.recordRequested ids).isRequested id = true ↔ id.identity ∈ ids.map TargetId.identity :=
  -- The requests are collected from the list.
  SortedSet.contains_collect_id

/-- A target is replaced when a replacement of it is filed under its name. -/
theorem isReplaced_iff {id : TargetId} : l.isReplaced id = true ↔
    ∃ held, l.replacements.get? id.name = some held ∧
      ∃ r ∈ held, r.target.identity = id.identity := by
  -- Replacements are looked up by the name, and then by the whole identity.
  rw [isReplaced, replacementFor?]
  cases l.replacements.get? id.name with
  | none => simp
  | some held => simp [List.find?_isSome, TargetId.beq_iff]

/-- Among the notes under one name, the new one is found for its target, and for other targets what
was found before. -/
theorem find?_noted (held : List Replacement) (r : Replacement) (id : TargetId) :
    (held.filter (fun old => old.target != r.target) ++ [r]).find? (fun r => r.target == id) =
      if r.target.identity = id.identity then some r
        else held.find? fun r => r.target == id := by
  rw [List.find?_append, List.find?_filter]
  split
  · -- An earlier note of the same target has been dropped.
    rename_i same
    have dropped : held.find? (fun old => old.target != r.target && old.target == id) = none := by
      refine List.find?_eq_none.mpr fun old _ => ?_
      simp only [bne, Bool.and_eq_true, Bool.not_eq_true', TargetId.beq_iff, ← same, not_and]
      intro other also
      rw [TargetId.beq_iff.mpr also] at other
      cases other
    simp [dropped, TargetId.beq_iff.mpr same]
  · -- What is looked for has not been dropped, and is not the new note.
    rename_i apart
    have kept : (fun old : Replacement => old.target != r.target && old.target == id) =
        fun old => old.target == id := by
      funext old
      by_cases here : (old.target == id) = true
      · have other : (old.target == r.target) = false := Bool.eq_false_iff.mpr fun also =>
          apart ((TargetId.beq_iff.mp also).symm.trans (TargetId.beq_iff.mp here))
        simp [bne, other]
      · simp [Bool.eq_false_iff.mpr here]
    have new : (r.target == id) = false :=
      Bool.eq_false_iff.mpr fun also => apart (TargetId.beq_iff.mp also)
    simp [kept, new]

/-- A replacement that has been noted is found for its target, and nothing else has changed. -/
theorem replacementFor?_recordReplacement (l : Ledger) (r : Replacement) (id : TargetId) :
    (l.recordReplacement r).replacementFor? id =
      if r.target.identity = id.identity then some r else l.replacementFor? id := by
  simp only [replacementFor?, recordReplacement, SortedMap.get?_alter,
    Std.LawfulEqOrd.compare_eq_iff_eq]
  by_cases names : id.name = r.target.name
  · rw [if_pos names, names, Option.bind_eq_bind, Option.bind_some, find?_noted]
    -- Where nothing is filed under the name, nothing is found.
    cases l.replacements.get? r.target.name <;> rfl
  · -- The replacements of other names are left alone.
    have other : r.target.identity ≠ id.identity := fun same => names (congrArg Prod.snd same).symm
    rw [if_neg names, if_neg other]

/-- Noting a replacement makes its target a replaced one, and no other. -/
theorem isReplaced_recordReplacement {r : Replacement} {id : TargetId} :
    (l.recordReplacement r).isReplaced id = true ↔
      l.isReplaced id = true ∨ r.target.identity = id.identity := by
  -- The new note is found for its own target, and older ones for others.
  rw [isReplaced, replacementFor?_recordReplacement]
  split <;> simp [isReplaced, *]

end Ledger

namespace Workspace

variable {w : Workspace}

/-- A target is found under an identity when it is declared under that name in a project stored
under that path. -/
theorem ownedTarget?_eq_some_iff {id : TargetId} {t : OwnedTarget} :
    w.ownedTarget? id = some t ↔ ∃ path, compare id.path path = .eq ∧
      (path, t.project) ∈ w.projects.entries ∧ (id.name, t.target) ∈ t.project.targets.entries := by
  -- Projects are found by keys that compare equal, and targets by keys that are the same.
  obtain ⟨project, target⟩ := t
  simp only [ownedTarget?, Option.bind_eq_bind, Option.bind_eq_some_iff, Option.pure_def,
    Option.some.injEq, OwnedTarget.mk.injEq]
  constructor
  · rintro ⟨p, stored, t, declared, rfl, rfl⟩
    obtain ⟨path, same, member⟩ := SortedMap.get?_eq_some_iff.mp stored
    exact ⟨path, same, member, DeclaredMap.get?_eq_some_iff.mp declared⟩
  · rintro ⟨path, same, member, declared⟩
    exact ⟨project, SortedMap.get?_eq_some_iff.mpr ⟨path, same, member⟩, target,
      DeclaredMap.get?_eq_some_iff.mpr declared, rfl, rfl⟩

/-- Which target is found depends on the identity only. -/
theorem ownedTarget?_congr {a b : TargetId} (same : a.identity = b.identity) :
    w.ownedTarget? a = w.ownedTarget? b := by
  -- The project is found under the steps of the path, and the target under its name.
  obtain ⟨steps, names⟩ := Prod.mk.inj same
  have stored := SortedMap.get?_congr (m := w.projects) (Path.compare_eq_iff.mpr steps)
  simp only [ownedTarget?, stored, names]

/-- The targets of a workspace are those that can be found. -/
theorem mem_owned_iff {t : OwnedTarget} : t ∈ w.owned ↔ ∃ id, w.ownedTarget? id = some t := by
  -- The keys of an entry are an identity under which its target is found.
  constructor
  · intro member
    simp only [owned, Project.owned, SortedMap.values, DeclaredMap.values, List.mem_flatMap,
      List.mem_map] at member
    obtain ⟨_, ⟨⟨path, p⟩, stored, rfl⟩, _, ⟨⟨name, target⟩, declared, rfl⟩, rfl⟩ := member
    exact ⟨⟨path, name⟩,
      ownedTarget?_eq_some_iff.mpr ⟨path, Std.ReflCmp.compare_self, stored, declared⟩⟩
  · rintro ⟨id, found⟩
    exact mem_owned_of_ownedTarget? found

/-- The plain look-up finds what the look-up with the project finds. -/
theorem target?_eq (id : TargetId) : w.target? id = (w.ownedTarget? id).map OwnedTarget.target := by
  -- Both find the project first, and the target in it next.
  simp only [target?, ownedTarget?]
  cases w.projects.get? id.path with
  | none => rfl
  | some p => cases found : p.targets.get? id.name <;> simp [found]

/-- What a target depends on is determined by its identity. -/
theorem dependenciesOf_congr {a b : TargetId} (same : a.identity = b.identity) :
    w.dependenciesOf a = w.dependenciesOf b := by
  -- The set is held for the node of the target, in whatever spelling.
  rw [dependenciesOf, dependenciesOf,
    SortedMap.get?_congr (TargetId.compare_toDependency.mpr same)]

end Workspace

end BuildGraph
