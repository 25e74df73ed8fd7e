import BuildGraph.Proofs.Focus

/-! The targets that a selection starts from, and what a target edge points to, said in terms of
what a workspace holds. -/

namespace BuildGraph

open Relation

namespace Workspace

variable {w : Workspace}

/-- One identity points to another when it has a target edge under whose path and name, taken as
keys, a target of the other is found. -/
def PointsTo (w : Workspace) (a b : Identity) : Prop :=
  ∃ id : TargetId, id.identity = a ∧ ∃ nodes, w.dependencies.get? id.toDependency = some nodes ∧
    ∃ name path, .target name path ∈ nodes.toList ∧
      -- What is found there may have another path and another name than its keys.
      ∃ p, w.projects.get? path = some p ∧ ∃ t, p.targets.get? name = some t ∧
        (p.path.components, t.name) = b

/-- The target edges are those of the nodes that are held for a target. -/
theorem mem_targetEdges_iff {id edge : TargetId} : edge ∈ w.targetEdges id ↔
    ∃ nodes, w.dependencies.get? id.toDependency = some nodes ∧
      .target edge.name edge.path ∈ nodes.toList := by
  -- Of all nodes, only those of targets name one.
  have named : ∀ node : Dependency, node.targetId? = some edge ↔
      .target edge.name edge.path = node := by
    intro node
    cases node with
    | target name path =>
      obtain ⟨place, label⟩ := edge
      simp only [Dependency.targetId?, Option.some.injEq, TargetId.mk.injEq,
        Dependency.target.injEq]
      constructor
      · rintro ⟨rfl, rfl⟩
        exact ⟨rfl, rfl⟩
      · rintro ⟨rfl, rfl⟩
        exact ⟨rfl, rfl⟩
    | _ => simp [Dependency.targetId?]
  simp only [targetEdges, dependenciesOf, List.mem_filterMap, named, exists_eq_right']
  cases w.dependencies.get? id.toDependency with
  | none => simp
  | some nodes => simp

/-- Something of an identity is found when a project and a target in it are. -/
theorem exists_identity_iff_get? {edge : TargetId} {k : Identity} :
    (∃ t, w.ownedTarget? edge = some t ∧ t.identity = k) ↔
      ∃ p, w.projects.get? edge.path = some p ∧ ∃ t, p.targets.get? edge.name = some t ∧
        (p.path.components, t.name) = k := by
  -- A look-up finds the project first, and the target in it next.
  simp only [ownedTarget?, Option.bind_eq_bind, Option.bind_eq_some_iff, Option.pure_def,
    Option.some.injEq]
  constructor
  · rintro ⟨_, ⟨p, stored, t, declared, rfl⟩, same⟩
    exact ⟨p, stored, t, declared, same⟩
  · rintro ⟨p, stored, t, declared, same⟩
    exact ⟨⟨p, t⟩, ⟨p, stored, t, declared, rfl⟩, same⟩

/-- Identities lead to what they point to. -/
theorem leads_eq_pointsTo : w.Leads = w.PointsTo := by
  funext a b
  -- Every spelling of an identity has the same edges, and one of them is as good as another.
  have found : ∀ id : TargetId, w.Leads id.identity b ↔
      ∃ nodes, w.dependencies.get? id.toDependency = some nodes ∧
        ∃ name path, .target name path ∈ nodes.toList ∧
          ∃ p, w.projects.get? path = some p ∧ ∃ t, p.targets.get? name = some t ∧
            (p.path.components, t.name) = b := by
    intro id
    rw [leads_iff]
    simp only [mem_targetEdges_iff, exists_identity_iff_get?]
    constructor
    · rintro ⟨edge, ⟨nodes, held, member⟩, there⟩
      exact ⟨nodes, held, edge.name, edge.path, member, there⟩
    · rintro ⟨nodes, held, name, path, member, there⟩
      exact ⟨⟨path, name⟩, ⟨nodes, held, member⟩, there⟩
  refine propext ⟨?_, ?_⟩
  · rintro ⟨id, rfl, next⟩
    exact ⟨id, rfl, (found id).mp ⟨id, rfl, next⟩⟩
  · rintro ⟨id, rfl, next⟩
    exact (found id).mpr next

/-- The targets of the test plans of a name are those that one of these plans lists. -/
theorem contains_testPlanTargets {plan : String} {id : TargetId} :
    (w.testPlanTargets plan).contains id = true ↔
      ∃ p ∈ w.testPlans, p.name = plan ∧ ∃ listed ∈ p.targets, (listed == id) = true := by
  -- Plans and identities are compared the same way on both sides.
  simp only [testPlanTargets, SortedSet.contains_collect, List.mem_flatMap, List.mem_filter,
    decide_eq_true_eq, TargetId.beq_iff, TargetId.compare_eq_iff]
  constructor
  · rintro ⟨listed, ⟨p, ⟨given, name⟩, member⟩, same⟩
    exact ⟨p, given, name, listed, member, same.symm⟩
  · rintro ⟨p, given, name, listed, member, same⟩
    exact ⟨listed, ⟨p, ⟨given, name⟩, member⟩, same.symm⟩

end Workspace

namespace Selection

variable {s : Selection} {w : Workspace} {t : OwnedTarget}

/-- A target of a local project that a selection is about: its name is not excluded, and it is
included where names are; otherwise it belongs to a test plan of the chosen name, where one is
chosen. -/
def Picks (s : Selection) (w : Workspace) (t : OwnedTarget) : Prop :=
  -- A test plan has no say where names are included.
  t ∈ w.allTargets.toList ∧ t.project.origin = .local ∧ t.name ∉ s.excluded.toList ∧
    if s.included.toList = [] then
      ∀ plan, s.testPlan = some plan →
        ∃ p ∈ w.testPlans, p.name = plan ∧ ∃ id ∈ p.targets, (id == t.id) = true
    else t.name ∈ s.included.toList

/-- The plan that has a say is the one that is chosen, unless names are included. -/
theorem activePlan?_eq_some_iff {plan : String} :
    s.filter.activePlan? = some plan ↔ s.included.toList = [] ∧ s.testPlan = some plan := by
  -- Names that are included take the say from every plan.
  simp only [TargetFilter.activePlan?, filter, Option.filter_eq_some_iff, SortedSet.isEmpty,
    List.isEmpty_iff]
  exact and_comm

/-- The sources of a selection are the targets that it picks. -/
theorem mem_sources_iff : t ∈ (s.sources w).toList ↔ s.Picks w t := by
  rw [toList_sources, List.mem_filter, Picks]
  refine and_congr_right fun _ => ?_
  -- The filter makes four demands, two of which depend on whether names are included.
  simp only [Workspace.admits, Bool.and_eq_true, Option.all_eq_true, activePlan?_eq_some_iff,
    Workspace.contains_testPlanTargets]
  simp only [filter, Bool.or_eq_true, Bool.not_eq_true', Bool.true_and, Bool.eq_false_iff,
    SortedSet.contains_iff_mem, SortedSet.isEmpty, List.isEmpty_iff, ne_eq, Project.isExternal,
    decide_eq_true_eq]
  have origin : ¬ t.project.origin = .external ↔ t.project.origin = .local := by
    cases t.project.origin <;> simp
  rw [origin]
  by_cases none : s.included.toList = []
  · simp only [none, true_and, if_true, true_or, and_true]
    constructor
    · rintro ⟨⟨plans, kept⟩, here⟩
      exact ⟨here, kept, plans⟩
    · rintro ⟨here, kept, plans⟩
      exact ⟨⟨plans, kept⟩, here⟩
  · simp only [none, false_and, if_false, false_or, false_implies, implies_true, true_and]
    constructor
    · rintro ⟨⟨given, kept⟩, here⟩
      exact ⟨here, kept, given⟩
    · rintro ⟨here, kept, given⟩
      exact ⟨⟨given, kept⟩, here⟩

/-- The targets that a selection picks point to an identity, in any number of steps. -/
def Reaches (s : Selection) (w : Workspace) (k : Identity) : Prop :=
  -- No step at all is allowed.
  ∃ r, s.Picks w r ∧ ReflTransGen w.PointsTo r.identity k

/-- A selection reaches what its sources need. -/
theorem needs_sources_iff {k : Identity} : w.Needs (s.sources w).toList k ↔ s.Reaches w k := by
  -- Leading somewhere is pointing there, and the sources are what is picked.
  simp only [Workspace.Needs, Reaches, mem_sources_iff, Workspace.leads_eq_pointsTo]

/-- A selection is explicit when names are included or a test plan is chosen. -/
theorem isExplicit_iff :
    s.isExplicit = true ↔ s.included.toList ≠ [] ∨ s.testPlan ≠ none := by
  rw [isExplicit, Bool.or_eq_true, Option.isSome_iff_exists]
  simp only [activePlan?_eq_some_iff]
  show (!s.included.toList.isEmpty) = true ∨ _ ↔ _
  rw [Bool.not_eq_true', Bool.eq_false_iff, ne_eq, List.isEmpty_iff]
  -- Where names are included, it does not matter whether the plan has a say.
  by_cases none : s.included.toList = []
  · simp [none, Option.ne_none_iff_exists']
  · simp [none]

end Selection

end BuildGraph
