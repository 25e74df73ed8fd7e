import BuildGraph.Proofs.Consistency
import BuildGraph.Proofs.DepthFirst.Parallel
import BuildGraph.Proofs.Spelling.Records

/-! Workspaces that are alike answer alike, whatever is asked about them. -/

namespace BuildGraph

namespace OwnedTarget

/-- Targets that are alike, of projects that are alike. -/
structure Counterpart (t u : OwnedTarget) : Prop where
  -- Equality of owned targets asks for the identity only, so more has to be said.
  project : Alike t.project u.project
  target : Alike t.target u.target

namespace Counterpart

variable {t u t' u' : OwnedTarget}

/-- Counterparts have the same name. -/
theorem name (same : t.Counterpart u) : t.name = u.name :=
  -- The name is a part of what targets are compared by.
  (Target.alike_iff.mp same.target).1

/-- Counterparts have identities that are alike. -/
theorem id (same : t.Counterpart u) : Alike t.id u.id :=
  -- It is the path of the project and the name of the target.
  TargetId.alike_iff_parts.mpr ⟨(Project.alike_iff.mp same.project).1, same.name⟩

/-- Counterparts have the same identity. -/
theorem identity (same : t.Counterpart u) : t.identity = u.identity :=
  -- Identities do not show how paths are spelled.
  TargetId.alike_iff.mp same.id

/-- Counterparts are pruned together. -/
theorem pruned (same : t.Counterpart u) : t.target.pruned = u.target.pruned :=
  -- The flag is a part of what targets are compared by.
  (Target.alike_iff.mp same.target).2.2.1

/-- Counterparts have foreign builds together, and these are alike. -/
theorem foreignBuild (same : t.Counterpart u) :
    Option.Rel Alike t.target.foreignBuild u.target.foreignBuild :=
  -- The foreign build is a part of what targets are compared by.
  alike_option_iff.mp (Target.alike_iff.mp same.target).2.2.2.2.2

/-- Counterparts compare alike, since their identities do. -/
theorem agree : Agree Counterpart compare compare := by
  -- Targets are compared by their identities.
  intro t u same t' u' also
  exact alike_agree same.id also.id

end Counterpart

end OwnedTarget

open OwnedTarget

/-- The identities of counterparts are alike, one by one. -/
theorem forall₂_ids {targets targets' : List OwnedTarget}
    (same : List.Forall₂ Counterpart targets targets') :
    List.Forall₂ Alike (targets.map OwnedTarget.id) (targets'.map OwnedTarget.id) :=
  -- Each pair is taken by itself.
  List.rel_map (P := Alike) (fun _ _ pair => pair.id) same

/-- Sets of identities that are alike contain identities that are. -/
theorem contains_collect_alike {ids ids' : List TargetId} (same : List.Forall₂ Alike ids ids')
    {id id' : TargetId} (also : Alike id id') :
    (SortedSet.collect ids).contains id = (SortedSet.collect ids').contains id' :=
  -- Collecting keeps the members of one set at the places of those of the other.
  SortedSet.contains_eq alike_agree (SortedSet.forall₂_collect alike_agree same) also

/-- The identities of counterparts contain the same names under paths that are alike. -/
theorem contains_ids_alike {targets targets' : List OwnedTarget}
    (pairs : List.Forall₂ Counterpart targets targets') {path path' : Path} {name name' : String}
    (paths : Alike path path') (names : name = name') :
    (SortedSet.collect (targets.map OwnedTarget.id)).contains ⟨path, name⟩ =
      (SortedSet.collect (targets'.map OwnedTarget.id)).contains ⟨path', name'⟩ :=
  -- It is the case of identities that are made of a path and a name.
  contains_collect_alike (forall₂_ids pairs) (TargetId.alike_iff_parts.mpr ⟨paths, names⟩)

namespace Workspace

variable {w w' : Workspace} {id id' : TargetId}

/-- Identities that are alike have counterparts in workspaces that are. -/
theorem rel_ownedTarget? (same : Alike w w') (ids : Alike id id') :
    Option.Rel Counterpart (w.ownedTarget? id) (w'.ownedTarget? id') := by
  obtain ⟨paths, names⟩ := TargetId.alike_iff_parts.mp ids
  -- The projects are looked up first, and then the targets that they declare.
  refine rel_optionBind (SortedMap.rel_get? (alike_iff.mp same).1 paths) fun p p' projects => ?_
  rw [names]
  have declared := (Project.alike_iff.mp projects).2.2.2.1
  exact rel_optionBind (DeclaredMap.alike_iff.mp declared id'.name) fun t t' targets =>
    .some ⟨projects, targets⟩

/-- A workspace that is alike to a tidy one is tidy. -/
theorem Tidy.alike (tidy : w.Tidy) (same : Alike w w') : w'.Tidy := by
  intro id u found
  have pair := rel_ownedTarget? same (TargetId.alike_refl id)
  rw [found] at pair
  -- The counterpart of what is found has the identity that it is found under.
  obtain ⟨t, there, counterpart⟩ := exists_left_of_rel pair
  rw [← counterpart.identity]
  exact tidy id t there

/-- The targets of tidy workspaces that are alike are counterparts, in their order. -/
theorem forall₂_allTargets (tidy : w.Tidy) (same : Alike w w') :
    List.Forall₂ Counterpart w.allTargets.toList w'.allTargets.toList := by
  have tidy' := tidy.alike same
  -- In whatever order targets are declared, each is found on the other side.
  refine SortedSet.forall₂_of_cover Counterpart.agree (fun t member => ?_) fun u member => ?_
  · have pair := rel_ownedTarget? same (TargetId.alike_refl t.id)
    rw [tidy.found (tidy.mem_allTargets.mp member)] at pair
    obtain ⟨u, there, counterpart⟩ := exists_right_of_rel pair
    exact ⟨u, tidy'.mem_allTargets.mpr (mem_owned_of_ownedTarget? there), counterpart⟩
  · have pair := rel_ownedTarget? same (TargetId.alike_refl u.id)
    rw [tidy'.found (tidy'.mem_allTargets.mp member)] at pair
    obtain ⟨t, there, counterpart⟩ := exists_left_of_rel pair
    exact ⟨t, tidy.mem_allTargets.mpr (mem_owned_of_ownedTarget? there), counterpart⟩

/-- Targets that are alike depend on nodes that are alike, one by one. -/
theorem forall₂_dependenciesOf (same : Alike w w') (ids : Alike id id') :
    List.Forall₂ Alike (w.dependenciesOf id).toList (w'.dependenciesOf id').toList := by
  have held := SortedMap.rel_get? (alike_iff.mp same).2 (Dependency.alike_toDependency ids)
  rw [dependenciesOf, dependenciesOf]
  -- Either both targets have dependencies, or neither is known to have any.
  generalize w.dependencies.get? id.toDependency = x at held ⊢
  generalize w'.dependencies.get? id'.toDependency = y at held ⊢
  cases held with
  | none => exact .nil
  | some nodes => exact SortedSet.alike_iff.mp nodes

/-- The direct dependencies of targets that are alike are counterparts. -/
theorem forall₂_directDependencies (same : Alike w w') (ids : Alike id id') :
    List.Forall₂ Counterpart (w.directDependencies id).toList
      (w'.directDependencies id').toList := by
  refine SortedSet.forall₂_collect Counterpart.agree ?_
  -- What nodes that are alike name is looked up on both sides.
  refine List.rel_filterMap (fun node node' pair => ?_) (forall₂_dependenciesOf same ids)
  exact rel_optionBind (Dependency.rel_targetId? pair) fun _ _ named => rel_ownedTarget? same named

/-- The test plans of workspaces that are alike are alike, in their order. -/
theorem forall₂_testPlans (same : Alike w w') : List.Forall₂ Alike w.testPlans w'.testPlans := by
  -- The plans are those of the projects one after another.
  refine List.rel_flatMap (SortedMap.forall₂_values (alike_iff.mp same).1) fun p p' pair => ?_
  exact alike_list_iff.mp (Project.alike_iff.mp pair).2.2.2.2

/-- The same test plans exist in workspaces that are alike. -/
theorem isSome_testPlan?_alike (same : Alike w w') (name : String) :
    (w.testPlan? name).isSome = (w'.testPlan? name).isSome := by
  -- A plan is looked for by its name, which has one spelling.
  refine isSome_eq_of_rel (rel_find? (fun p p' pair => ?_) (forall₂_testPlans same))
  rw [(TestPlan.alike_iff.mp pair).1]

/-- Test plans of one name list targets that are alike in workspaces that are. -/
theorem contains_testPlanTargets_alike (same : Alike w w') (name : String) (ids : Alike id id') :
    (w.testPlanTargets name).contains id = (w'.testPlanTargets name).contains id' := by
  refine contains_collect_alike ?_ ids
  -- The plans of the name are the same ones, and list targets that are alike.
  have plans := forall₂_filter (p := fun p => decide (p.name = name))
    (q := fun p => decide (p.name = name))
    (fun p p' pair => by rw [(TestPlan.alike_iff.mp pair).1]) (forall₂_testPlans same)
  exact List.rel_flatMap plans fun p p' pair => alike_list_iff.mp (TestPlan.alike_iff.mp pair).2

/-- Counterparts pass the same filters. -/
theorem admits_alike (same : Alike w w') (f : TargetFilter) {t u : OwnedTarget}
    (pair : t.Counterpart u) : w.admits f t = w'.admits f u := by
  -- Of its four demands, a filter makes one of the identity, two of the name, and one of the
  -- origin.
  have external : t.project.isExternal = u.project.isExternal := by
    rw [Project.isExternal, Project.isExternal, (Project.alike_iff.mp pair.project).2.2.1]
  have planned : (fun plan => (w.testPlanTargets plan).contains t.id) =
      fun plan => (w'.testPlanTargets plan).contains u.id :=
    funext fun plan => contains_testPlanTargets_alike same plan pair.id
  rw [admits, admits, planned, pair.name, external]

/-- Closures of counterparts are made of counterparts, and else both sides run into loops that are
alike. -/
theorem closure_alike (same : Alike w w') {sources sources' : SortedSet OwnedTarget}
    (start : List.Forall₂ Counterpart sources.toList sources'.toList) :
    Matching (List.Forall₂ Alike)
      (fun needed needed' => List.Forall₂ Counterpart needed.toList needed'.toList)
      (w.closure sources) (w'.closure sources') := by
  have search := DepthFirst.sort_parallel Counterpart.agree start
    (fun t u pair => forall₂_directDependencies same pair.id)
    (w.finitelyReachable sources.toList) (w'.finitelyReachable sources'.toList)
  rw [closure, closure]
  -- Both searches end in the same way.
  generalize DepthFirst.sort compare sources.toList _ _ = x at search ⊢
  generalize DepthFirst.sort compare sources'.toList _ _ = y at search ⊢
  cases search with
  | ok order => exact .ok (SortedSet.forall₂_collect Counterpart.agree order)
  | error loop => exact .error (forall₂_ids loop)

/-- Passing every target through functions that keep targets alike keeps workspaces alike. -/
theorem alike_mapTargets (same : Alike w w') {f g : Path → Target → Target}
    (step : ∀ path path', Alike path path' → ∀ t t', Alike t t' → Alike (f path t) (g path' t')) :
    Alike (w.mapTargets f) (w'.mapTargets g) := by
  obtain ⟨projects, dependencies⟩ := alike_iff.mp same
  -- The functions are told the paths of projects, which are alike.
  refine alike_iff.mpr ⟨SortedMap.alike_map projects fun p p' pair => ?_, dependencies⟩
  obtain ⟨paths, name, origin, targets, plans⟩ := Project.alike_iff.mp pair
  exact Project.alike_iff.mpr
    ⟨paths, name, origin, DeclaredMap.alike_map targets (step _ _ paths), plans⟩

/-- Passing one target through functions that keep targets alike keeps workspaces alike. -/
theorem alike_modifyTarget (same : Alike w w') (ids : Alike id id') {f g : Target → Target}
    (step : ∀ t t', Alike t t' → Alike (f t) (g t')) :
    Alike (w.modifyTarget id f) (w'.modifyTarget id' g) := by
  -- The project and the target are looked up under keys that are alike.
  obtain ⟨projects, dependencies⟩ := alike_iff.mp same
  obtain ⟨here, names⟩ := TargetId.alike_iff_parts.mp ids
  refine alike_iff.mpr ⟨SortedMap.alike_modify projects here fun p p' pair => ?_, dependencies⟩
  obtain ⟨paths, name, origin, targets, plans⟩ := Project.alike_iff.mp pair
  rw [names]
  exact Project.alike_iff.mpr
    ⟨paths, name, origin, DeclaredMap.alike_modify targets id'.name step, plans⟩

end Workspace

end BuildGraph
