import BuildGraph.Proofs.Trace
import BuildGraph.Proofs.Wiring

/-! Once a run has focused, its live targets depend on live targets only, whatever passes come
later. -/

namespace BuildGraph

namespace StandardPass

variable {w : Workspace} {l : Ledger} {o : Outcome}

/-- A pass that focuses leaves a sustained workspace, whatever it was given. -/
theorem sustained_of_focus {s : Selection} (ran : ((focus s).run w l).result = .ok o) :
    o.workspace.Sustained := by
  -- What the pass leaves is focused, and every focused workspace is sustained.
  obtain ⟨w', l', done, rfl⟩ := run_focus_eq_ok.mp ran
  exact (Selection.focused_of_focus done).sustained

/-- Every pass keeps a workspace sustained. -/
theorem keeps_sustained {pass : StandardPass} (sustained : w.Sustained)
    (ran : (pass.run w l).result = .ok o) : o.workspace.Sustained := by
  cases pass with
  | wiring =>
    -- Neither target edges nor live targets change.
    cases ran
    exact sustained.wired
  | focus s => exact sustained_of_focus ran
  | caching table =>
    -- The edges to a target go away together with it.
    obtain ⟨w', l', done, rfl⟩ := run_caching_eq_ok.mp ran
    exact sustained.substitute done
  | scheduling probe =>
    -- Nothing changes at all.
    obtain ⟨effects, _, rfl⟩ := run_scheduling_eq_ok.mp ran
    exact sustained

end StandardPass

namespace Pipeline

variable {w : Workspace} {l : Ledger} {o : Outcome}

/-- A run of passes one of which focuses ends in a sustained workspace. -/
theorem sustained_of_runAll {passes : List StandardPass} {s : Selection}
    (focuses : .focus s ∈ passes)
    (ran : (runAll w l (passes.map StandardPass.toPass)).result = .ok o) :
    o.workspace.Sustained := by
  -- The focus establishes this, and every pass keeps it.
  refine runAll_establishes (fun w' _ => w'.Sustained) (List.mem_map_of_mem focuses)
    (fun _ _ _ => StandardPass.sustained_of_focus) ?_ ran
  intro pass member w' l' o' before done
  obtain ⟨standard, _, rfl⟩ := List.mem_map.mp member
  exact StandardPass.keeps_sustained before done

/-- Whatever standard passes a pipeline is assembled of, if one of them focuses, then no target that
is live in the end depends directly on one that is pruned. -/
theorem live_dependencies_of_focus {passes : List StandardPass} {p : Pipeline} {s : Selection}
    (assembled : assemble (passes.map StandardPass.toPass) = .ok p) (focuses : .focus s ∈ passes)
    (ran : (p.run w l).result = .ok o) :
    ∀ t ∈ o.workspace.owned, t.target.pruned = false →
      ∀ d ∈ (o.workspace.directDependencies t.id).toList, d.target.pruned = false := by
  -- The pipeline runs the passes that it was assembled of.
  intro t member live d next
  obtain ⟨same, _⟩ := assemble_eq_ok assembled
  rw [run, same] at ran
  have sustained := sustained_of_runAll focuses ran
  exact sustained.directDependencies member live next

/-- In the small workspace, the application is live in the end, and so is all it depends on. -/
theorem live_dependencies_of_sample : ∃ p,
    assemble ((Sample.settings.passes Sample.nothingThere).map StandardPass.toPass) = .ok p ∧
    .focus Sample.settings.selection ∈ Sample.settings.passes Sample.nothingThere ∧
    (p.run Sample.workspace).result = .ok Sample.outcome ∧
    ∀ t ∈ Sample.outcome.workspace.owned, t.target.pruned = false →
      ∀ d ∈ (Sample.outcome.workspace.directDependencies t.id).toList, d.target.pruned = false := by
  -- The focus is the second of the passes.
  have assembled : assemble ((Sample.settings.passes Sample.nothingThere).map StandardPass.toPass) =
      .ok (Sample.settings.pipeline Sample.nothingThere) := rfl
  have focuses : .focus Sample.settings.selection ∈ Sample.settings.passes Sample.nothingThere :=
    .tail _ (.head _)
  exact ⟨_, assembled, focuses, Sample.run_workspace,
    live_dependencies_of_focus assembled focuses Sample.run_workspace⟩

end Pipeline

end BuildGraph
