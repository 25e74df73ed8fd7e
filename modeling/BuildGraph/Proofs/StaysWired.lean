import BuildGraph.Proofs.LiveDependencies
import BuildGraph.Proofs.Rewiring

/-! Once a run has wired the foreign builds, wiring them again in the end changes nothing, whatever
passes come between. -/

namespace BuildGraph

namespace Dependencies.Links

variable {d : Dependencies} {id : TargetId} {output : Dependency}

/-- A linked output is a node with an entry. -/
theorem contains (links : d.Links id output) : SortedMap.contains d output = true := by
  -- A set is held for it, so that it is there.
  rw [SortedMap.contains_eq_isSome_get?, links.present]

/-- Every stored set with a node of the target has the output of that target. -/
theorem mem_of_stored (links : d.Links id output) {stored : Dependency × SortedSet Dependency}
    (member : stored ∈ d.entries) (depends : ∃ node ∈ stored.2.toList, node.isTarget id = true) :
    stored.2.contains output = true := by
  -- A stored set is held for its own node.
  have held : d.get? stored.1 = some stored.2 := SortedMap.get?_of_mem member
  exact links.followed stored.1 stored.2 held (List.any_eq_true.mpr depends)

end Dependencies.Links

namespace StandardPass

variable {w : Workspace} {l : Ledger} {o : Outcome}

/-- A pass that wires leaves a wired workspace, whatever it was given. -/
theorem wired_of_wiring (ran : (wiring.run w l).result = .ok o) : o.workspace.Wired := by
  -- The pass returns the wired workspace, and wiring that once more changes nothing.
  cases ran
  exact w.wired_wired

/-- Every pass keeps a workspace wired. -/
theorem keeps_wired {pass : StandardPass} (wired : w.Wired)
    (ran : (pass.run w l).result = .ok o) : o.workspace.Wired := by
  cases pass with
  | wiring => exact wired_of_wiring ran
  | focus s =>
    -- Neither what targets run nor what depends on what changes.
    obtain ⟨w', l', done, rfl⟩ := run_focus_eq_ok.mp ran
    exact wired.focus done
  | caching table =>
    -- The output of a target goes away together with the target, and never alone.
    obtain ⟨w', l', done, rfl⟩ := run_caching_eq_ok.mp ran
    exact wired.substitute done
  | scheduling probe =>
    -- Nothing changes at all.
    obtain ⟨effects, _, rfl⟩ := run_scheduling_eq_ok.mp ran
    exact wired

end StandardPass

namespace Pipeline

variable {w : Workspace} {l : Ledger} {o : Outcome}

/-- A run of passes one of which wires ends in a wired workspace. -/
theorem wired_of_runAll {passes : List StandardPass} (wires : .wiring ∈ passes)
    (ran : (runAll w l (passes.map StandardPass.toPass)).result = .ok o) : o.workspace.Wired := by
  -- The wiring establishes this, and every pass keeps it.
  refine runAll_establishes (fun w' _ => w'.Wired) (List.mem_map_of_mem wires)
    (fun _ _ _ => StandardPass.wired_of_wiring) ?_ ran
  intro pass member w' l' o' before done
  obtain ⟨standard, _, rfl⟩ := List.mem_map.mp member
  exact StandardPass.keeps_wired before done

/-- Whatever standard passes a pipeline is assembled of, if one of them wires, then another wiring
of what the run leaves changes nothing; and every target with a foreign build that is listed there
has its output among the nodes with entries and in each set that has the target. -/
theorem stays_wired {passes : List StandardPass} {p : Pipeline}
    (assembled : assemble (passes.map StandardPass.toPass) = .ok p) (wires : .wiring ∈ passes)
    (ran : (p.run w l).result = .ok o) :
    (∀ l', StandardPass.wiring.run o.workspace l' = pure ⟨o.workspace, [], l'⟩) ∧
    ∀ t ∈ o.workspace.foreignBuildTargets.toList, ∀ b, t.target.foreignBuild = some b →
      SortedMap.contains o.workspace.dependencies
          (.foreignOutput t.name t.path b.output.linking) = true ∧
      ∀ stored ∈ o.workspace.dependencies.entries,
        (∃ node ∈ stored.2.toList, node.isTarget t.id = true) →
          stored.2.contains (.foreignOutput t.name t.path b.output.linking) = true := by
  -- The pipeline runs the passes that it was assembled of.
  obtain ⟨same, _⟩ := assemble_eq_ok assembled
  rw [run, same] at ran
  have wired : o.workspace.Wired := wired_of_runAll wires ran
  constructor
  · intro l'
    rw [StandardPass.run, wired.wired_eq_self]
  · -- All that is listed with a foreign build is linked.
    intro t listed b owns
    have linked : o.workspace.dependencies.Links t.id (b.outputNode t.id) :=
      (wired (t.id, b) (Workspace.mem_foreignBuilds.mpr ⟨t, listed, owns, rfl⟩)).linked
    exact ⟨linked.contains, fun stored member depends => linked.mem_of_stored member depends⟩

/-- The run on the small workspace has replaced its library, and the one foreign build that is
listed in the end is still wired. -/
theorem stays_wired_of_sample : ∃ p,
    assemble ((Sample.settings.passes Sample.nothingThere).map StandardPass.toPass) = .ok p ∧
    .wiring ∈ Sample.settings.passes Sample.nothingThere ∧
    (p.run Sample.workspace).result = .ok Sample.outcome ∧
    (∀ l', StandardPass.wiring.run Sample.outcome.workspace l' =
      pure ⟨Sample.outcome.workspace, [], l'⟩) ∧
    Sample.outcome.workspace.foreignBuildTargets.toList.map OwnedTarget.id =
      [⟨Sample.project.path, "Kit"⟩] ∧
    ∀ t ∈ Sample.outcome.workspace.foreignBuildTargets.toList, ∀ b,
      t.target.foreignBuild = some b → SortedMap.contains Sample.outcome.workspace.dependencies
        (.foreignOutput t.name t.path b.output.linking) = true := by
  -- The wiring is the first of the passes.
  have assembled : assemble ((Sample.settings.passes Sample.nothingThere).map StandardPass.toPass) =
      .ok (Sample.settings.pipeline Sample.nothingThere) := rfl
  have wires : .wiring ∈ Sample.settings.passes Sample.nothingThere := .head _
  obtain ⟨again, linked⟩ := stays_wired assembled wires Sample.run_workspace
  exact ⟨_, assembled, wires, Sample.run_workspace, again, by decide,
    fun t listed b owns => (linked t listed b owns).1⟩

end Pipeline

end BuildGraph
