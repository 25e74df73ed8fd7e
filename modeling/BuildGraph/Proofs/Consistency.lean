import Mathlib.Data.Set.Finite.Basic
import BuildGraph.Proofs.Liveness
import BuildGraph.Substitution

/-! In a workspace whose keys agree with what they are keys of, targets are what they are found
under, and dependencies between targets are dependencies between identities. -/

namespace BuildGraph

open Relation

/-- Going against a relation that has no loops among finitely many things comes to an end. -/
theorem exists_top {α : Type} [Finite α] {r : α → α → Prop} (acyclic : ∀ a, ¬ TransGen r a a)
    (b : α) : ∃ top, (∀ a, ¬ r a top) ∧ ReflTransGen r top b := by
  -- The induction is on the walks that end at a thing, which are well founded without loops.
  have irreflexive : Std.Irrefl (TransGen r) := ⟨acyclic⟩
  have founded : WellFounded (TransGen r) := Finite.wellFounded_of_trans_of_irrefl _
  induction b using founded.induction with
  | _ b ih =>
    by_cases highest : ∀ a, ¬ r a b
    · exact ⟨b, highest, .refl⟩
    · -- Something is before this, and something at the top leads to that.
      simp only [not_forall, not_not] at highest
      obtain ⟨a, next⟩ := highest
      obtain ⟨top, first, path⟩ := ih a (.single next)
      exact ⟨top, first, path.tail next⟩

namespace Workspace

variable {w w' : Workspace}

/-- Every project is stored under its own path, and every target under its own name. -/
structure KeyConsistent (w : Workspace) : Prop where
  -- Paths may be spelled in several ways, and names may not.
  paths : ∀ stored ∈ w.projects.entries, (stored.1 == stored.2.path) = true
  names : ∀ stored ∈ w.projects.entries, ∀ declared ∈ stored.2.targets.entries,
    declared.1 = declared.2.name

/-- Every target has the identity that it is found under. -/
def Tidy (w : Workspace) : Prop :=
  -- Keys may be spelled in another way than the paths they stand for.
  ∀ id t, w.ownedTarget? id = some t → t.identity = id.identity

/-- Where keys are consistent, targets have the identities that they are found under. -/
theorem KeyConsistent.tidy (consistent : w.KeyConsistent) : w.Tidy := by
  intro id t found
  obtain ⟨path, same, stored, declared⟩ := ownedTarget?_eq_some_iff.mp found
  -- The key of the project is like its path, and that of the target is its name.
  have kept : (path == t.project.path) = true := consistent.paths (path, t.project) stored
  have paths : path.components = t.project.path.components := by
    rwa [Path.beq_iff_compare, Path.compare_eq_iff] at kept
  have names : id.name = t.target.name := consistent.names _ stored _ declared
  have steps : id.path.components = path.components := Path.compare_eq_iff.mp same
  exact Prod.ext (paths.symm.trans steps.symm) names.symm

namespace Tidy

/-- Workspaces of one outline are tidy together. -/
theorem of_outline (tidy : w.Tidy) (same : w'.outline = w.outline) : w'.Tidy := by
  -- The same identities are found under the same keys.
  intro id t found
  obtain ⟨u, there, outline⟩ := exists_ownedTarget?_of_outline same found
  rw [OwnedTarget.identity, OwnedTarget.id_of_outline outline]
  exact tidy id u there

/-- A target of a tidy workspace is found under its own identity. -/
theorem found (tidy : w.Tidy) {t : OwnedTarget} (member : t ∈ w.owned) :
    w.ownedTarget? t.id = some t := by
  -- It is found under some identity, which is its own.
  obtain ⟨id, there⟩ := mem_owned_iff.mp member
  have same : t.id.identity = id.identity := tidy id t there
  rw [ownedTarget?_congr same, there]

/-- Targets of a tidy workspace are told apart by their identities. -/
theorem eq_of_identity (tidy : w.Tidy) {t u : OwnedTarget} (member : t ∈ w.owned)
    (other : u ∈ w.owned) (same : t.identity = u.identity) : t = u := by
  -- Both are found under the one identity.
  have there := tidy.found member
  rw [ownedTarget?_congr (show t.id.identity = u.id.identity from same), tidy.found other] at there
  exact (Option.some.inj there).symm

/-- What holds of some target with the identity of another holds of that. -/
theorem exists_identity_iff (tidy : w.Tidy) {holds : OwnedTarget → Prop}
    (owned : ∀ u, holds u → u ∈ w.owned) {t : OwnedTarget} (member : t ∈ w.owned) :
    (∃ u, holds u ∧ u.identity = t.identity) ↔ holds t := by
  -- The two are one target.
  constructor
  · intro ⟨u, held, same⟩
    rwa [tidy.eq_of_identity member (owned u held) same.symm]
  · intro held
    exact ⟨t, held, rfl⟩

/-- None of the targets of a tidy workspace is lost when they are collected. -/
theorem mem_allTargets (tidy : w.Tidy) {t : OwnedTarget} :
    t ∈ w.allTargets.toList ↔ t ∈ w.owned := by
  -- The spelling that stays is a target of the same identity, and thus the same target.
  constructor
  · exact SortedSet.mem_of_mem_collect
  · intro member
    obtain ⟨u, there, same⟩ := SortedSet.exists_mem_collect member
    have other : u ∈ w.owned := SortedSet.mem_of_mem_collect there
    rwa [tidy.eq_of_identity member other (OwnedTarget.compare_eq_iff.mp same)]

/-- The live targets of a tidy workspace are those of its targets that are not pruned. -/
theorem mem_liveTargets (tidy : w.Tidy) {t : OwnedTarget} :
    t ∈ w.liveTargets.toList ↔ t ∈ w.owned ∧ t.target.pruned = false := by
  -- All targets of a tidy workspace are listed, and the live ones are filtered from them.
  simp [liveTargets, SortedSet.filter, tidy.mem_allTargets]

/-- The live targets of a tidy workspace are targets of it. -/
theorem liveTargets_owned (tidy : w.Tidy) : ∀ t ∈ w.liveTargets.toList, t ∈ w.owned :=
  -- It is one half of what membership says.
  fun _ member => (tidy.mem_liveTargets.mp member).1

/-- The live targets of a tidy workspace are those that are live under their identities. -/
theorem exists_liveTarget_iff (tidy : w.Tidy) {k : Identity} :
    (∃ t ∈ w.liveTargets.toList, t.identity = k) ↔ ∃ id, w.Live id ∧ id.identity = k := by
  -- Under its identity, a target is found itself.
  constructor
  · rintro ⟨t, member, same⟩
    obtain ⟨owned, live⟩ := tidy.mem_liveTargets.mp member
    exact ⟨t.id, (live_iff_of_found (tidy.found owned)).mpr live, same⟩
  · rintro ⟨id, live, same⟩
    obtain ⟨t, there, unpruned⟩ := live_iff.mp live
    have owned := mem_owned_of_ownedTarget? there
    exact ⟨t, tidy.mem_liveTargets.mpr ⟨owned, unpruned⟩, (tidy id t there).trans same⟩

end Tidy

/-- A target edge of `t` resolves to `u`. -/
def DependsOn (w : Workspace) (t u : OwnedTarget) : Prop :=
  -- The edge names a key, and what is found under that may have another identity.
  ∃ name path, Dependency.target name path ∈ (w.dependenciesOf t.id).toList ∧
    w.ownedTarget? ⟨path, name⟩ = some u

/-- The target edges of a target name what its target nodes stand for. -/
theorem mem_targetEdges {id edge : TargetId} :
    edge ∈ w.targetEdges id ↔ edge.toDependency ∈ (w.dependenciesOf id).toList := by
  -- The nodes of targets are the only ones that name one.
  rw [targetEdges, List.mem_filterMap]
  constructor
  · rintro ⟨node, member, named⟩
    cases node with
    | target name path =>
      cases named
      exact member
    | _ => cases named
  · intro member
    exact ⟨edge.toDependency, member, rfl⟩

/-- A target leads to the identities of what it depends on. -/
theorem leads_iff_dependsOn {t : OwnedTarget} {k : Identity} :
    w.Leads t.identity k ↔ ∃ u, w.DependsOn t u ∧ u.identity = k := by
  -- Both sides speak of what is found under the target edges.
  rw [OwnedTarget.identity, leads_iff]
  simp only [mem_targetEdges]
  constructor
  · rintro ⟨edge, member, u, found, same⟩
    exact ⟨u, ⟨edge.name, edge.path, member, found⟩, same⟩
  · rintro ⟨u, ⟨name, path, member, found⟩, same⟩
    exact ⟨⟨path, name⟩, member, u, found, same⟩

/-- What a target depends on is a target of the workspace. -/
theorem DependsOn.mem_owned {t u : OwnedTarget} (next : w.DependsOn t u) : u ∈ w.owned := by
  -- It has been found, so it is there.
  obtain ⟨name, path, _, found⟩ := next
  exact mem_owned_of_ownedTarget? found

/-- A walk among targets that keeps to some of them is one among identities, and the other way
round. -/
theorem reflTransGen_iff_dependsOn (keeps : Identity → Prop) {t : OwnedTarget} {k : Identity} :
    ReflTransGen (fun a b => w.Leads a b ∧ keeps b) t.identity k ↔
      ∃ u, ReflTransGen (fun a b => w.DependsOn a b ∧ keeps b.identity) t u ∧ u.identity = k := by
  -- The induction is on the walk, which is carried over step by step.
  constructor
  · intro path
    induction path with
    | refl => exact ⟨t, .refl, rfl⟩
    | tail _ next ih =>
      obtain ⟨u, path, rfl⟩ := ih
      obtain ⟨v, step, rfl⟩ := leads_iff_dependsOn.mp next.1
      exact ⟨v, path.tail ⟨step, next.2⟩, rfl⟩
  · rintro ⟨u, path, rfl⟩
    induction path with
    | refl => exact .refl
    | tail _ next ih => exact ih.tail ⟨leads_iff_dependsOn.mpr ⟨_, next.1, rfl⟩, next.2⟩

/-- What is needed belongs to targets of the workspace, if the sources do. -/
theorem Needs.mem_owned {sources : List OwnedTarget} (owned : ∀ s ∈ sources, s ∈ w.owned)
    {k : Identity} (needed : w.Needs sources k) : k ∈ w.owned.map OwnedTarget.identity := by
  -- A walk ends at its source or at what some edge leads to.
  obtain ⟨s, given, path⟩ := needed
  cases path with
  | refl => exact List.mem_map_of_mem (owned s given)
  | tail _ next =>
    obtain ⟨id, rfl, t, member, rfl⟩ := next
    exact List.mem_map_of_mem (w.mem_owned_of_mem_directDependencies member)

/-- Where nothing that is needed lies on a loop, all of it is needed by something that nothing
needed leads to. -/
theorem exists_top_of_acyclic {sources : List OwnedTarget} (owned : ∀ s ∈ sources, s ∈ w.owned)
    (acyclic : ∀ k, w.Needs sources k → ¬ TransGen w.Leads k k) {k : Identity}
    (needed : w.Needs sources k) :
    ∃ top, w.Needs sources top ∧ (∀ a, w.Needs sources a → ¬ w.Leads a top) ∧
      ReflTransGen w.Leads top k := by
  -- There are finitely many needed identities, and no loop among them either.
  have listed : {a | w.Needs sources a} ⊆ {a | a ∈ w.owned.map OwnedTarget.identity} :=
    fun _ => Needs.mem_owned owned
  have finite : Finite {a // w.Needs sources a} :=
    ((List.finite_toSet _).subset listed).to_subtype
  have among : ∀ a : {a // w.Needs sources a},
      ¬ TransGen (fun b c : {a // w.Needs sources a} => w.Leads b.1 c.1) a a := fun a loop =>
    acyclic a.1 a.2 (loop.lift Subtype.val fun _ _ next => next)
  obtain ⟨top, highest, path⟩ := exists_top among ⟨k, needed⟩
  exact ⟨top.1, top.2, fun a also => highest ⟨a, also⟩,
    path.lift Subtype.val fun _ _ next => next⟩

end Workspace

end BuildGraph
