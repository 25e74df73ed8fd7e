import BuildGraph.Proofs.Identity
import BuildGraph.Selection

/-! The outline of a workspace is what no pass changes in its projects, and is all that selections
and look-ups read of them. -/

namespace BuildGraph

/-- A target without what passes may change. -/
def Target.outline (t : Target) : Target :=
  -- The foreign build is kept, since no pass changes it.
  { name := t.name, product := .aggregate, foreignBuild := t.foreignBuild }

/-- A project without what passes may change in its targets. -/
def Project.outline (p : Project) : Project :=
  -- All but the targets is kept as it is.
  { p with targets := p.targets.map Target.outline }

/-- A project whose targets are seen through a function. -/
def Project.seen (g : Target → Target) (p : Project) : Project :=
  -- Path and name of the project stay as they are.
  { p with targets := p.targets.map g }

/-- A target and its project without what passes may change. -/
def OwnedTarget.outline (t : OwnedTarget) : OwnedTarget :=
  -- The identity of the target can still be told.
  ⟨t.project.outline, t.target.outline⟩

/-- The projects of a workspace without what passes may change, and no dependencies. -/
def Workspace.outline (w : Workspace) : Workspace :=
  -- Dependencies are left out, since passes change them.
  { projects := w.projects.map Project.outline }

namespace OwnedTarget

/-- The outline of a target has its identity. -/
@[simp] theorem id_outline (t : OwnedTarget) : t.outline.id = t.id :=
  -- An outline keeps names and paths.
  rfl

/-- Targets of one outline have one identity. -/
theorem id_of_outline {a b : OwnedTarget} (same : a.outline = b.outline) : a.id = b.id := by
  -- The identity is read off the outline.
  rw [← id_outline a, same, id_outline]

/-- The outline of a target has its foreign build. -/
@[simp] theorem foreignBuild_outline (t : OwnedTarget) :
    t.outline.target.foreignBuild = t.target.foreignBuild :=
  -- An outline keeps foreign builds.
  rfl

/-- Targets of one outline have one foreign build. -/
theorem foreignBuild_of_outline {a b : OwnedTarget} (same : a.outline = b.outline) :
    a.target.foreignBuild = b.target.foreignBuild := by
  -- The foreign build is read off the outline.
  rw [← foreignBuild_outline a, same, foreignBuild_outline]

/-- Outlines are ordered as their targets are. -/
theorem compare_outline (a b : OwnedTarget) : compare a.outline b.outline = compare a b :=
  -- The order looks at paths and names only.
  rfl

end OwnedTarget

namespace Workspace

section Edits

variable (w : Workspace)

/-- Passing every target through a function that does not change what is seen of it changes nothing
of what is seen of the projects. -/
theorem seen_mapTargets {g : Target → Target} {f : Path → Target → Target}
    (keeps : ∀ path t, g (f path t) = g t) :
    (w.mapTargets f).projects.map (Project.seen g) = w.projects.map (Project.seen g) := by
  -- Each target of each project is changed on its own.
  have targets : ∀ p : Project,
      Project.seen g { p with targets := p.targets.map (f p.path) } = p.seen g := by
    intro p
    simp only [Project.seen]
    congr 1
    apply DeclaredMap.ext
    simp [DeclaredMap.map, keeps]
  apply SortedMap.ext
  simp [mapTargets, SortedMap.map, targets]

/-- Passing one target through a function that does not change what is seen of it changes nothing
of what is seen of the projects. -/
theorem seen_modifyTarget {g f : Target → Target} (keeps : ∀ t, g (f t) = g t) (id : TargetId) :
    (w.modifyTarget id f).projects.map (Project.seen g) = w.projects.map (Project.seen g) := by
  -- Whether or not an entry is the one that is changed, it looks the same.
  have targets : ∀ p : Project,
      Project.seen g { p with targets := p.targets.modify id.name f } = p.seen g := by
    intro p
    simp only [Project.seen]
    congr 1
    apply DeclaredMap.ext
    simp [DeclaredMap.map, DeclaredMap.modify, apply_ite g, keeps]
  apply SortedMap.ext
  simp [modifyTarget, SortedMap.map, SortedMap.modify, apply_ite (Project.seen g), targets]

/-- Passing every target through a function that keeps its outline keeps that of the workspace. -/
theorem outline_mapTargets {f : Path → Target → Target}
    (keeps : ∀ path t, (f path t).outline = t.outline) : (w.mapTargets f).outline = w.outline :=
  -- Dependencies are no part of an outline, so that it is made of the projects that are seen.
  congrArg (fun projects => ({ projects } : Workspace)) (w.seen_mapTargets keeps)

/-- Passing one target through a function that keeps its outline keeps that of the workspace. -/
theorem outline_modifyTarget {f : Target → Target} (keeps : ∀ t, (f t).outline = t.outline)
    (id : TargetId) : (w.modifyTarget id f).outline = w.outline :=
  -- Dependencies are no part of an outline, so that it is made of the projects that are seen.
  congrArg (fun projects => ({ projects } : Workspace)) (w.seen_modifyTarget keeps id)

/-- What is found once every target has passed through a function. -/
theorem target?_mapTargets (f : Path → Target → Target) (id : TargetId) :
    (w.mapTargets f).target? id = (w.ownedTarget? id).map fun t => f t.path t.target := by
  -- Both look-ups pass the change on.
  simp only [target?, ownedTarget?, mapTargets, SortedMap.get?_map]
  cases w.projects.get? id.path with
  | none => rfl
  | some p => cases found : p.targets.get? id.name <;> simp [found, OwnedTarget.path]

/-- What is found once one target has passed through a function. -/
theorem target?_modifyTarget (f : Target → Target) (id k : TargetId) :
    (w.modifyTarget id f).target? k = (w.target? k).map fun t =>
      if id.identity = k.identity then f t else t := by
  -- The change is seen where both the path and the name agree.
  simp only [target?, modifyTarget, SortedMap.get?_modify, TargetId.identity, Prod.mk.injEq,
    Path.compare_eq_iff]
  cases w.projects.get? k.path with
  | none => rfl
  | some p =>
    by_cases steps : id.path.components = k.path.components
    · simp [steps, DeclaredMap.get?_modify, eq_comm]
    · simp [steps]

end Edits

variable {w w' : Workspace}

/-- Workspaces of one outline have the same projects if they have the same targets. -/
theorem projects_of_outline (same : w'.outline = w.outline)
    (targets : ∀ id, w'.target? id = w.target? id) : w'.projects = w.projects := by
  have outlines : w'.projects.map Project.outline = w.projects.map Project.outline :=
    congrArg projects same
  have paths : w'.projects.keys = w.projects.keys := by
    simpa [SortedMap.keys, SortedMap.map, Function.comp_def] using
      congrArg SortedMap.keys outlines
  refine SortedMap.ext_get? paths fun path => ?_
  -- Projects at one path are the same but for their targets, and these are looked up in them.
  have alike : (w'.projects.get? path).map Project.outline =
      (w.projects.get? path).map Project.outline := by
    simpa using congrArg (SortedMap.get? · path) outlines
  have declared : ∀ name, w'.target? ⟨path, name⟩ = w.target? ⟨path, name⟩ := fun name =>
    targets ⟨path, name⟩
  simp only [target?, Option.bind_eq_bind] at declared
  cases stored : w.projects.get? path with
  | none => simpa [stored] using alike
  | some p =>
    rw [stored] at alike
    obtain ⟨q, also, seen⟩ := Option.map_eq_some_iff.mp alike
    simp only [stored, also, Option.bind_some] at declared
    rw [also]
    simp only [Project.outline, Project.mk.injEq] at seen
    obtain ⟨samePath, sameName, sameOrigin, sameTargets, samePlans⟩ := seen
    have names : q.targets.keys = p.targets.keys := by
      simpa [DeclaredMap.keys, DeclaredMap.map, Function.comp_def] using
        congrArg DeclaredMap.keys sameTargets
    have held : q.targets = p.targets := DeclaredMap.ext_get? names declared
    cases p
    cases q
    simp only at samePath sameName sameOrigin samePlans held
    rw [samePath, sameName, sameOrigin, samePlans, held]

/-- The targets of the outline are the outlines of the targets. -/
theorem owned_outline : w.outline.owned = w.owned.map OwnedTarget.outline := by
  -- Projects are outlined one by one, and targets within them.
  simp only [owned, outline, SortedMap.values, SortedMap.map, List.map_map, List.map_flatMap,
    List.flatMap_map]
  congr 1
  funext e
  simp [Project.owned, Project.outline, DeclaredMap.values, DeclaredMap.map, OwnedTarget.outline]

/-- What is found in the outline is the outline of what is found. -/
theorem ownedTarget?_outline (id : TargetId) :
    w.outline.ownedTarget? id = (w.ownedTarget? id).map OwnedTarget.outline := by
  -- Both look-ups pass the outline on.
  simp only [ownedTarget?, outline, SortedMap.get?_map]
  cases w.projects.get? id.path with
  | none => rfl
  | some p =>
    cases found : p.targets.get? id.name <;> simp [found, Project.outline, OwnedTarget.outline]

/-- Workspaces of one outline find targets of one outline. -/
theorem ownedTarget?_of_outline (same : w'.outline = w.outline) (id : TargetId) :
    (w'.ownedTarget? id).map OwnedTarget.outline = (w.ownedTarget? id).map OwnedTarget.outline := by
  -- The outline of what is found is what is found in the outline.
  rw [← ownedTarget?_outline, same, ownedTarget?_outline]

/-- Workspaces of one outline find targets of one identity. -/
theorem id_ownedTarget?_of_outline (same : w'.outline = w.outline) (id : TargetId) :
    (w'.ownedTarget? id).map OwnedTarget.id = (w.ownedTarget? id).map OwnedTarget.id := by
  -- The outlines of what is found tell the identities.
  have ids := congrArg (Option.map OwnedTarget.id) (ownedTarget?_of_outline same id)
  simpa [Option.map_map, Function.comp_def] using ids

/-- Whatever is found in a workspace has a counterpart in one of the same outline. -/
theorem exists_ownedTarget?_of_outline (same : w'.outline = w.outline) {id : TargetId}
    {t : OwnedTarget} (found : w'.ownedTarget? id = some t) :
    ∃ u, w.ownedTarget? id = some u ∧ t.outline = u.outline := by
  -- Nothing is found on the one side where nothing is found on the other.
  have outlines := ownedTarget?_of_outline same id
  rw [found] at outlines
  obtain ⟨u, there, also⟩ := Option.map_eq_some_iff.mp outlines.symm
  exact ⟨u, there, also.symm⟩

/-- Every target has a counterpart in a workspace of the same outline. -/
theorem exists_mem_owned_of_outline (same : w'.outline = w.outline) {t : OwnedTarget}
    (member : t ∈ w'.owned) : ∃ u ∈ w.owned, t.outline = u.outline := by
  -- A target is found under some identity, in both workspaces.
  obtain ⟨id, found⟩ := mem_owned_iff.mp member
  obtain ⟨u, there, outlines⟩ := exists_ownedTarget?_of_outline same found
  exact ⟨u, mem_owned_of_ownedTarget? there, outlines⟩

/-- The outline has all the targets, in order. -/
theorem allTargets_outline :
    w.outline.allTargets.toList = w.allTargets.toList.map OwnedTarget.outline := by
  -- Outlines are collected in the order of their targets.
  rw [allTargets, allTargets, owned_outline]
  exact SortedSet.toList_collect_map OwnedTarget.compare_outline _

/-- The outline has the test plans of the workspace. -/
theorem testPlans_outline : w.outline.testPlans = w.testPlans := by
  -- An outline keeps the test plans of every project.
  simp [testPlans, outline, SortedMap.values, SortedMap.map, List.flatMap_map, Project.outline]

/-- A filter admits the outline of a target where it admits the target. -/
theorem admits_outline (f : TargetFilter) (t : OwnedTarget) :
    w.outline.admits f t.outline = w.admits f t := by
  -- A filter asks for nothing that an outline does not show.
  simp only [admits, testPlanTargets, testPlans_outline]
  rfl

end Workspace

namespace Selection

variable {w w' : Workspace} (s : Selection)

/-- The selected targets stand in the order of all targets. -/
theorem toList_sources (w : Workspace) :
    (s.sources w).toList = w.allTargets.toList.filter (w.admits s.filter) :=
  -- The targets stand in order already, and filtering keeps them so.
  SortedSet.toList_collect_of_ordered (w.allTargets.ordered.sublist List.filter_sublist)

/-- What is selected of the outline are the outlines of what is selected. -/
theorem sources_outline :
    (s.sources w.outline).toList = (s.sources w).toList.map OwnedTarget.outline := by
  -- Filtering and taking outlines can be done in either order.
  simp only [toList_sources, Workspace.allTargets_outline, List.filter_map, Function.comp_def,
    Workspace.admits_outline]

/-- Workspaces of one outline have selected targets of one outline. -/
theorem sources_of_outline (same : w'.outline = w.outline) :
    (s.sources w').toList.map OwnedTarget.outline =
      (s.sources w).toList.map OwnedTarget.outline := by
  -- What is selected of the one outline is that of both.
  rw [← sources_outline, same, sources_outline]

/-- Workspaces of one outline have selected targets of the same identities. -/
theorem sources_id_of_outline (same : w'.outline = w.outline) :
    (s.sources w').toList.map OwnedTarget.id = (s.sources w).toList.map OwnedTarget.id := by
  -- The outlines of what is selected tell the identities.
  have ids := congrArg (List.map OwnedTarget.id) (s.sources_of_outline same)
  simpa [List.map_map, Function.comp_def] using ids

/-- A selection is refused on the outline of a workspace as it is on the workspace. -/
theorem refusal?_outline : s.refusal? w.outline = s.refusal? w := by
  -- A refusal reads names of sources and of test plans, which outlines have.
  have names : (s.sources w.outline).toList.map OwnedTarget.name =
      (s.sources w).toList.map OwnedTarget.name := by
    rw [sources_outline, List.map_map]
    rfl
  have missing : s.missing w.outline = s.missing w := by simp only [Selection.missing, names]
  have plans : w.outline.testPlan? = w.testPlan? := by
    funext name
    simp only [Workspace.testPlan?, Workspace.testPlans_outline]
  rw [refusal?, refusal?, missing, plans]

/-- Workspaces of one outline refuse the same selections for the same reasons. -/
theorem refusal?_of_outline (same : w'.outline = w.outline) : s.refusal? w' = s.refusal? w := by
  -- What is wrong with a selection shows in the outline.
  rw [← refusal?_outline, same, refusal?_outline]

end Selection

end BuildGraph
