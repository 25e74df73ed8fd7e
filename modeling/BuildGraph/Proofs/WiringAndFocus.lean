import BuildGraph.Proofs.Focus
import BuildGraph.Proofs.Trace
import BuildGraph.Proofs.Wiring

/-! Wiring and focusing commute: what a focus reads is left alone by wiring, and what it writes is
left alone by wiring as well. -/

namespace BuildGraph

/-- A target of which nothing is seen but its name and whether it is pruned. -/
def Target.marks (t : Target) : Target :=
  -- Wiring changes everything but these two.
  { name := t.name, product := .aggregate, pruned := t.pruned }

namespace Workspace

variable {w w' : Workspace}

/-- Changing all targets and changing one of them can be done in either order if this can be done
with every single target. -/
theorem mapTargets_modifyTarget {f : Path → Target → Target} {g : Target → Target}
    (apart : ∀ path t, f path (g t) = g (f path t)) (w : Workspace) (id : TargetId) :
    (w.modifyTarget id g).mapTargets f = (w.mapTargets f).modifyTarget id g := by
  -- Within one project, the change of one target is the same before and after the others.
  have targets : ∀ (path : Path) (m : DeclaredMap String Target),
      (m.modify id.name g).map (f path) = (m.map (f path)).modify id.name g := by
    intro path m
    apply DeclaredMap.ext
    simp only [DeclaredMap.map, DeclaredMap.modify, List.map_map]
    refine List.map_congr_left fun e _ => ?_
    show (e.1, f path (if e.1 = id.name then g e.2 else e.2)) =
      (e.1, if e.1 = id.name then g (f path e.2) else f path e.2)
    split
    · rw [apart]
    · rfl
  -- The project that is looked for is the same one too, since it keeps its key.
  have projects : (w.modifyTarget id g).mapTargets f = (w.mapTargets f).modifyTarget id g := by
    simp only [mapTargets, modifyTarget, mk.injEq, and_true]
    apply SortedMap.ext
    simp only [SortedMap.map, SortedMap.modify, List.map_map]
    refine List.map_congr_left fun e _ => ?_
    simp only [Function.comp_apply]
    split
    · simp only [targets]
    · rfl
  exact projects

/-- Changing all targets and wiring one foreign build can be done in either order if the change of
a target leaves alone what it runs. -/
theorem mapTargets_wire {f : Path → Target → Target}
    (apart : ∀ path t name b, f path (t.aggregated name b) = (f path t).aggregated name b)
    (w : Workspace) (id : TargetId) (b : ForeignBuild) :
    (w.wire id b).mapTargets f = (w.mapTargets f).wire id b := by
  -- Dependencies are no part of the one, and the targets change in either order.
  have targets : (w.modifyTarget id fun t => t.aggregated id.name b).mapTargets f =
      (w.mapTargets f).modifyTarget id fun t => t.aggregated id.name b :=
    mapTargets_modifyTarget (fun path t => apart path t id.name b) w id
  have projects := congrArg Workspace.projects targets
  simp only [mapTargets, modifyTarget] at projects
  simp only [wire, mapTargets, modifyTarget, projects]

/-- Changing all targets and wiring all foreign builds can be done in either order if the change of
a target leaves alone what it runs and its outline. -/
theorem mapTargets_wired {f : Path → Target → Target}
    (apart : ∀ path t name b, f path (t.aggregated name b) = (f path t).aggregated name b)
    (keeps : ∀ path t, (f path t).outline = t.outline) (w : Workspace) :
    w.wired.mapTargets f = (w.mapTargets f).wired := by
  -- The same builds are wired on both sides, one after another.
  have steps : ∀ (builds : List (TargetId × ForeignBuild)) (w : Workspace),
      (builds.foldl (fun w build => w.wire build.1 build.2) w).mapTargets f =
        builds.foldl (fun w build => w.wire build.1 build.2) (w.mapTargets f) := by
    intro builds
    induction builds with
    | nil =>
      intro w
      rfl
    | cons build rest ih =>
      intro w
      rw [List.foldl_cons, List.foldl_cons, ih, mapTargets_wire apart]
  have builds : (w.mapTargets f).foreignBuilds = w.foreignBuilds :=
    foreignBuilds_of_outline (w.outline_mapTargets keeps)
  rw [wired, steps, wired, builds]

/-- What is pruned can be read off the projects when only names and marks are seen of targets. -/
theorem prunedTargets_of_marks
    (same : w'.projects.map (Project.seen Target.marks) =
      w.projects.map (Project.seen Target.marks)) :
    w'.prunedTargets = w.prunedTargets := by
  -- The pruned targets of a project are those of the project as it is seen.
  have own : ∀ w : Workspace, w.prunedTargets =
      ({ projects := w.projects.map (Project.seen Target.marks) } : Workspace).prunedTargets := by
    intro w
    simp [prunedTargets, SortedMap.values, SortedMap.map, DeclaredMap.values, DeclaredMap.map,
      Project.seen, List.flatMap_map, List.filter_map, Function.comp_def, Target.marks]
  rw [own w', own w, same]

/-- Wiring prunes nothing and revives nothing. -/
theorem prunedTargets_wired (w : Workspace) : w.wired.prunedTargets = w.prunedTargets := by
  refine wired_keeps (fun w' => w'.prunedTargets = w.prunedTargets) ?_ rfl
  intro w' id b _ before
  rw [← before]
  -- Of a target that is wired, neither the name nor the mark changes.
  have seen : (w'.wire id b).projects.map (Project.seen Target.marks) =
      w'.projects.map (Project.seen Target.marks) := by
    refine w'.seen_modifyTarget ?_ id
    intro t
    rfl
  exact prunedTargets_of_marks seen

end Workspace

namespace Selection

variable {s : Selection} {w : Workspace} {l : Ledger}

/-- What a focus keeps on a wired workspace is what it keeps on the workspace, wired. -/
theorem focusOn_wired (w : Workspace) (needed : SortedSet OwnedTarget) :
    focusOn w.wired needed = (focusOn w needed).wired := by
  refine Workspace.mapTargets_wired ?_ ?_ w
  · -- A mark depends on the name of a target, and that stays when the target is wired.
    intro path t name b
    rfl
  · intro path t
    rfl

/-- A focus on a wired workspace comes to what it comes to on the workspace, wired. -/
theorem focus_wired (s : Selection) (w : Workspace) (l : Ledger) :
    s.focus w.wired l = (s.focus w l).map fun (w', l') => (w'.wired, l') := by
  -- The same targets are kept, or nothing is.
  rw [focus_of_outline w.outline_wired w.targetEdges_wired, focus_of_outline rfl fun _ => rfl]
  cases s.closure w with
  | error e => rfl
  | ok needed => simp only [Except.map, focusOn_wired]

end Selection

namespace Pipeline

variable {w : Workspace} {l : Ledger} {s : Selection}

/-- A run that starts with wiring is a run of the rest on the wired workspace. -/
theorem runAll_wiring (rest : List Pass) :
    runAll w l (StandardPass.wiring.toPass :: rest) = runAll w.wired l rest := by
  -- Wiring asks nothing and adds no work in front of that of the rest.
  have handed : ∀ a : Attempt Outcome,
      a.andThen (fun last => pure { last with sideEffects := [] ++ last.sideEffects }) = a := by
    intro a
    obtain ⟨asked, result⟩ := a
    cases result <;> simp [Attempt.andThen, pure, Attempt.ofExcept]
  exact handed (runAll w.wired l rest)

/-- Wiring and then focusing is one and the same attempt as focusing and then wiring, whatever the
workspace and the ledger are; it comes to what the focus alone comes to, be that an error or a
workspace that is then wired, and asks for no work. Wiring prunes and revives nothing. -/
theorem wiring_and_focus_commute (w : Workspace) (l : Ledger) (s : Selection) :
    runAll w l [StandardPass.wiring.toPass, (StandardPass.focus s).toPass] =
        runAll w l [(StandardPass.focus s).toPass, StandardPass.wiring.toPass] ∧
      (runAll w l [StandardPass.wiring.toPass, (StandardPass.focus s).toPass]).result =
        ((StandardPass.focus s).run w l).result.map
          (fun o => ⟨o.workspace.wired, [], o.ledger⟩) ∧
      ∀ v : Workspace, v.wired.prunedTargets = v.prunedTargets := by
  -- In either order, what is wired is what the focus has left, and nothing is asked.
  have wiredFirst : runAll w l [StandardPass.wiring.toPass, (StandardPass.focus s).toPass] =
      .ofExcept ((s.focus w l).map fun (w', l') => ⟨w'.wired, [], l'⟩) := by
    rw [runAll_wiring]
    simp only [runAll, StandardPass.run_toPass, StandardPass.run, Selection.focus_wired]
    cases s.focus w l <;> rfl
  have focusedFirst : runAll w l [(StandardPass.focus s).toPass, StandardPass.wiring.toPass] =
      .ofExcept ((s.focus w l).map fun (w', l') => ⟨w'.wired, [], l'⟩) := by
    simp only [runAll, StandardPass.run_toPass, StandardPass.run]
    cases s.focus w l <;> rfl
  refine ⟨by rw [wiredFirst, focusedFirst], ?_, Workspace.prunedTargets_wired⟩
  rw [wiredFirst, StandardPass.run]
  cases s.focus w l <;> rfl

end Pipeline

end BuildGraph
