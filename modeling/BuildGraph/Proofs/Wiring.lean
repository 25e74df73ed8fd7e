import BuildGraph.Proofs.Liveness
import BuildGraph.Wiring

/-! Wiring foreign builds changes neither the outline of a workspace, nor its target edges, nor
which of its targets are live. -/

namespace BuildGraph

namespace Dependencies

/-- A relation in which all that depends on a target also depends on its output is no other on the
nodes of targets, up to edges that lead to no target. -/
theorem targets_link (d : Dependencies) (id k : TargetId) {output : Dependency}
    (passed : output.targetId? = none) :
    (((d.link id output).get? k.toDependency).getD {}).toList.filterMap Dependency.targetId? =
      ((d.get? k.toDependency).getD {}).toList.filterMap Dependency.targetId? := by
  -- The output is no target, so that its new entry is not that of a target.
  have other : compare k.toDependency output ≠ .eq := fun same => by
    have named := TargetId.targetId?_of_compare same
    simp [passed] at named
  have added : (d.add output []).get? k.toDependency = d.get? k.toDependency := by
    rw [add, SortedMap.get?_alter, if_neg other]
  rw [link, SortedMap.get?_map, added]
  cases d.get? k.toDependency with
  | none => rfl
  | some nodes =>
    simp only [Option.map_some, Option.getD_some]
    -- Where the output is added, it is passed over as it names no target.
    split
    · exact SortedSet.filterMap_place passed nodes.toList
    · rfl

end Dependencies

namespace Workspace

variable {w w' : Workspace}

/-- The foreign builds are those that targets of a workspace are listed with. -/
theorem mem_foreignBuilds {build : TargetId × ForeignBuild} : build ∈ w.foreignBuilds ↔
    ∃ t ∈ w.foreignBuildTargets.toList, t.target.foreignBuild = some build.2 ∧ t.id = build.1 := by
  -- What is listed is listed with the build that its target owns.
  obtain ⟨id, b⟩ := build
  simp only [foreignBuilds, List.mem_filterMap, Option.map_eq_some_iff, Prod.mk.injEq]
  constructor
  · rintro ⟨t, listed, _, owns, same, rfl⟩
    exact ⟨t, listed, owns, same⟩
  · rintro ⟨t, listed, owns, same⟩
    exact ⟨t, listed, b, owns, same, rfl⟩

/-- The foreign builds are those of the outline. -/
theorem foreignBuilds_of_outline (same : w'.outline = w.outline) :
    w'.foreignBuilds = w.foreignBuilds := by
  -- Outlines have the identities of targets, and their foreign builds.
  have own : ∀ w : Workspace, w.outline.foreignBuilds = w.foreignBuilds := by
    intro w
    simp only [foreignBuilds, foreignBuildTargets, SortedSet.filter, allTargets_outline,
      List.filter_map, List.filterMap_map]
    rfl
  rw [← own, same, own]

/-- Running a foreign build leaves the outline of a target alone. -/
theorem outline_aggregated (t : Target) (name : String) (b : ForeignBuild) :
    (t.aggregated name b).outline = t.outline :=
  -- An outline shows none of the fields that change.
  rfl

/-- Wiring one foreign build keeps the outline. -/
theorem outline_wire (w : Workspace) (id : TargetId) (b : ForeignBuild) :
    (w.wire id b).outline = w.outline :=
  -- The edges that are added are no part of the outline.
  w.outline_modifyTarget (fun t => outline_aggregated t id.name b) id

/-- Wiring one foreign build keeps the target edges. -/
theorem targetEdges_wire (w : Workspace) (id : TargetId) (b : ForeignBuild) (k : TargetId) :
    (w.wire id b).targetEdges k = w.targetEdges k :=
  -- What is linked is the output of a build, which is no target.
  Dependencies.targets_link w.dependencies id k rfl

/-- Wiring one foreign build keeps the live targets. -/
theorem live_wire (w : Workspace) (id : TargetId) (b : ForeignBuild) (k : TargetId) :
    (w.wire id b).Live k ↔ w.Live k := by
  -- Whether or not a target is the one that is changed, it is pruned if it was.
  have kept : ∀ t : Target,
      (if id.identity = k.identity then t.aggregated id.name b else t).pruned = t.pruned := by
    intro t
    split <;> rfl
  change (w.modifyTarget id fun t => t.aggregated id.name b).Live k ↔ w.Live k
  rw [live_modifyTarget, Live]
  simp only [kept]

/-- What wiring each foreign build keeps is kept by wiring all of them. -/
theorem wired_keeps (holds : Workspace → Prop) (keeps : ∀ w' id b, (id, b) ∈ w.foreignBuilds →
    holds w' → holds (wire w' id b)) (start : holds w) : holds w.wired := by
  -- The builds are wired one after another, and all of them are builds of the first workspace.
  have steps : ∀ (builds : List (TargetId × ForeignBuild)) (w' : Workspace),
      (∀ build ∈ builds, build ∈ w.foreignBuilds) → holds w' →
      holds (builds.foldl (fun w build => w.wire build.1 build.2) w') := by
    intro builds
    induction builds with
    | nil => exact fun _ _ held => held
    | cons build rest ih =>
      intro w' among held
      exact ih _ (fun other later => among other (.tail _ later))
        (keeps w' build.1 build.2 (among build (.head _)) held)
  exact steps w.foreignBuilds w (fun _ given => given) start

/-- Wiring keeps the outline. -/
theorem outline_wired (w : Workspace) : w.wired.outline = w.outline :=
  -- Each build that is wired keeps it.
  wired_keeps (fun w' => w'.outline = w.outline)
    (fun w' id b _ same => (w'.outline_wire id b).trans same) rfl

/-- Wiring keeps the target edges. -/
theorem targetEdges_wired (w : Workspace) (k : TargetId) :
    w.wired.targetEdges k = w.targetEdges k :=
  -- Each build that is wired keeps them.
  wired_keeps (fun w' => w'.targetEdges k = w.targetEdges k)
    (fun w' id b _ same => (w'.targetEdges_wire id b k).trans same) rfl

/-- Wiring keeps the live targets. -/
theorem live_wired (w : Workspace) (k : TargetId) : w.wired.Live k ↔ w.Live k :=
  -- Each build that is wired keeps them.
  wired_keeps (fun w' => w'.Live k ↔ w.Live k)
    (fun w' id b _ same => (w'.live_wire id b k).trans same) .rfl

/-- A wired workspace narrows the one that it is made of. -/
theorem narrows_wired (w : Workspace) : w.wired.Narrows w where
  -- Nothing is lost, nor is anything won.
  outline := w.outline_wired
  edges id edge member := by rwa [targetEdges_wired] at member
  live id := (w.live_wired id).mp

/-- Wiring keeps a workspace sustained. -/
theorem Sustained.wired (sustained : w.Sustained) : w.wired.Sustained :=
  -- Edges and live targets are the same as before.
  sustained.narrow w.narrows_wired fun _ _ _ _ edge _ _ _ live => (w.live_wired edge).mpr live

end Workspace

end BuildGraph
