import BuildGraph.Proofs.EndToEnd
import BuildGraph.Proofs.Replacements
import BuildGraph.Proofs.Spelling.Passes

/-! What a run decides depends neither on how paths are spelled nor on the order in which the
targets of a project are declared. -/

namespace BuildGraph

/-- Outcomes of runs on two workspaces: what they leave is alike, and they ask, in the same order,
for the same scripts to be run for the same targets. -/
structure Outcome.Counterpart (w w' : Workspace) (o o' : Outcome) : Prop where
  -- The commands cannot be compared as texts, since they contain the paths.
  workspace : Alike o.workspace o'.workspace
  ledger : Alike o.ledger o'.ledger
  commands : List.Forall₂ (w.SameCommand w') o.sideEffects o'.sideEffects

namespace Workspace

variable {v v' w w' : Workspace}

/-- Commands for the same target are so for any workspaces of the same outlines. -/
theorem SameCommand.of_outline (outline : v.outline = w.outline)
    (outline' : v'.outline = w'.outline) {command command' : SideEffect}
    (same : v.SameCommand v' command command') : w.SameCommand w' command command' := by
  obtain ⟨t, member, t', member', ids, script, runs, runs'⟩ := same
  obtain ⟨u, there, outlines⟩ := exists_mem_owned_of_outline outline member
  obtain ⟨u', there', outlines'⟩ := exists_mem_owned_of_outline outline' member'
  -- Outlines tell the identities of targets and their foreign builds.
  have id : t.id = u.id := OwnedTarget.id_of_outline outlines
  have id' : t'.id = u'.id := OwnedTarget.id_of_outline outlines'
  have path : t.path = u.path := congrArg TargetId.path id
  have path' : t'.path = u'.path := congrArg TargetId.path id'
  rw [OwnedTarget.foreignBuild_of_outline outlines, path] at runs
  rw [OwnedTarget.foreignBuild_of_outline outlines', path'] at runs'
  exact ⟨u, there, u', there', by rwa [← id, ← id'], script, runs, runs'⟩

end Workspace

namespace StandardPass

variable {w w' : Workspace} {l l' : Ledger}

/-- A pass makes outcomes that are alike of workspaces that are, or fails alike. -/
theorem run_alike (pass : StandardPass)
    (consistent : ∀ probe, pass = .scheduling probe → probe.Consistent) (tidy : w.Tidy)
    (same : Alike w w') (ledgers : Alike l l') :
    Matching PassError.Counterpart (Outcome.Counterpart w w') (pass.run w l).result
      (pass.run w' l').result := by
  -- Each pass has its own reason, given where its operation is treated.
  cases pass with
  | wiring => exact .ok ⟨Workspace.alike_wired tidy same, ledgers, .nil⟩
  | focus s =>
    refine (s.focus_alike tidy same ledgers).map fun p p' pair => ?_
    exact ⟨(alike_pair_iff.mp pair).1, (alike_pair_iff.mp pair).2, .nil⟩
  | caching table =>
    refine (Workspace.substitute_alike tidy same ledgers table).map fun p p' pair => ?_
    exact ⟨(alike_pair_iff.mp pair).1, (alike_pair_iff.mp pair).2, .nil⟩
  | scheduling probe =>
    have asked := Workspace.schedule_alike tidy same ledgers (consistent probe rfl)
    rw [run, run, Attempt.result_bind, Attempt.result_bind]
    exact asked.bind fun _ _ commands => .ok ⟨same, ledgers, commands⟩

end StandardPass

namespace Pipeline

variable {w w' : Workspace} {l l' : Ledger}

/-- Passes that run one after another make outcomes that are alike of workspaces that are, or fail
alike. -/
theorem runAll_alike {passes : List StandardPass}
    (consistent : ∀ probe, .scheduling probe ∈ passes → probe.Consistent) (tidy : w.Tidy)
    (same : Alike w w') (ledgers : Alike l l') :
    Matching PassError.Counterpart (Outcome.Counterpart w w')
      (runAll w l (passes.map StandardPass.toPass)).result
      (runAll w' l' (passes.map StandardPass.toPass)).result := by
  -- The induction is on the passes; each hands on workspaces that are alike, and keeps outlines.
  induction passes generalizing w w' l l' with
  | nil => exact .ok ⟨same, ledgers, .nil⟩
  | cons pass rest ih =>
    have here : ∀ probe, pass = .scheduling probe → probe.Consistent :=
      fun probe is => consistent probe (is ▸ .head _)
    have later : ∀ probe, .scheduling probe ∈ rest → probe.Consistent :=
      fun probe member => consistent probe (.tail _ member)
    rw [List.map_cons, runAll, runAll, Attempt.result_bind, Attempt.result_bind]
    refine (pass.run_alike here tidy same ledgers).and_eq.bind fun first first' began => ?_
    obtain ⟨pair, ran, ran'⟩ := began
    have outline := StandardPass.outline_run ran
    have outline' := StandardPass.outline_run ran'
    rw [Attempt.result_bind, Attempt.result_bind]
    refine (ih later (tidy.of_outline outline) pair.workspace pair.ledger).bind
      fun last last' rested => .ok ⟨rested.workspace, rested.ledger, ?_⟩
    -- The commands of the rest are for targets of the workspaces from before as well.
    exact List.rel_append pair.commands
      (rested.commands.imp fun _ _ => .of_outline outline outline')

end Pipeline

namespace Settings

variable {s : Settings} {w w' : Workspace} {probe : Probe}

/-- On workspaces that are alike, with keys that are consistent, and with a probe that tells the
same of all spellings of a path, runs of the same settings both fail with errors that carry the
same, or both succeed, leave workspaces and ledgers that are alike, and ask, in the same order, for
the same scripts to be run for the same targets. -/
theorem same_decisions (consistent : w.KeyConsistent) (same : (w == w') = true)
    (answers : probe.Consistent) :
    Matching PassError.Counterpart (Outcome.Counterpart w w') ((s.pipeline probe).run w).result
      ((s.pipeline probe).run w').result := by
  -- A run of settings is one of its passes, of which only the last asks a probe.
  have probes : ∀ asked, .scheduling asked ∈ s.passes probe → asked.Consistent := by
    intro asked member
    simp only [passes, List.mem_cons, reduceCtorEq, List.not_mem_nil, or_false, false_or,
      StandardPass.scheduling.injEq] at member
    rwa [member]
  have ledgers : Alike ({} : Ledger) {} := rfl
  exact Pipeline.runAll_alike probes consistent.tidy same ledgers

end Settings

namespace Sample

/-- The small workspace with its paths spelled in other ways, and its targets in another order. -/
def respelled : Workspace where
  -- Only spellings and the order of declaration differ from the small workspace.
  projects := .ofList [(⟨"/A/"⟩, { project with
    path := ⟨"//A/."⟩
    targets := .ofList [
      ("Kit", { name := "Kit", product := .staticLibrary,
                foreignBuild := some { build with output := ⟨⟨"out//Kit.a"⟩, .static⟩ } }),
      ("Core", { name := "Core", product := .framework }),
      ("App", { name := "App", product := .app })] })]
  dependencies := Dependencies.add {} (.target "App" ⟨"/A/."⟩)
    [.target "Kit" ⟨"/A//"⟩, .target "Core" ⟨"//A"⟩]

end Sample

/-- The small workspace is alike to another spelling of itself, and the run that has an artefact for
the library comes to the same on both. -/
theorem Settings.same_decisions_of_sample : Sample.workspace.KeyConsistent ∧
    (Sample.workspace == Sample.respelled) = true ∧ Sample.workspace ≠ Sample.respelled ∧
    Sample.nothingThere.Consistent ∧
    Matching PassError.Counterpart (Outcome.Counterpart Sample.workspace Sample.respelled)
      ((Sample.settings.pipeline Sample.nothingThere).run Sample.workspace).result
      ((Sample.settings.pipeline Sample.nothingThere).run Sample.respelled).result := by
  -- The respelled workspace writes a path in another way, and nothing else.
  have consistent : Sample.workspace.KeyConsistent := ⟨by decide, by decide⟩
  have same : (Sample.workspace == Sample.respelled) = true := by decide
  have answers : Sample.nothingThere.Consistent := fun _ _ _ _ => Iff.rfl
  exact ⟨consistent, same, by decide, answers, same_decisions consistent same answers⟩

end BuildGraph
