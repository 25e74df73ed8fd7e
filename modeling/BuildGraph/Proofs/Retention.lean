import BuildGraph.Proofs.Rewiring

/-! No run deletes anything: projects and targets stay, nodes with dependencies stay, and the only
dependencies that go are those on targets that the ledger says were replaced. -/

namespace BuildGraph

namespace Dependencies

variable {d d' : Dependencies} {l l' : Ledger}

/-- Every entry of one relation is there in another, with all that it depends on but replaced
targets and the outputs of these. -/
def Survives (d d' : Dependencies) (l : Ledger) : Prop :=
  ∀ stored ∈ d.entries, ∃ kept ∈ d'.entries, kept.1 = stored.1 ∧
    -- Nodes stay in the spelling that they have.
    ∀ node ∈ stored.2.toList, node ∈ kept.2.toList ∨
      ∃ id, l.isReplaced id = true ∧ (node.isTarget id = true ∨ node.isOutputOf id = true)

namespace Survives

/-- Every relation survives as it is. -/
theorem refl (d : Dependencies) (l : Ledger) : d.Survives d l :=
  -- Every entry is its own survivor.
  fun stored member => ⟨stored, member, rfl, fun _ given => .inl given⟩

/-- What survives survives a change that keeps entries and what is not replaced by then. -/
theorem trans {d'' : Dependencies} (survives : d.Survives d' l) (more : d'.Survives d'' l')
    (noted : ∀ id, l.isReplaced id = true → l'.isReplaced id = true) : d.Survives d'' l' := by
  -- What the first change replaced counts as replaced after the second.
  intro stored member
  obtain ⟨kept, there, same, nodes⟩ := survives stored member
  obtain ⟨last, here, also, rest⟩ := more kept there
  refine ⟨last, here, also.trans same, fun node given => ?_⟩
  rcases nodes node given with still | ⟨id, replaced, concerns⟩
  · exact rest node still
  · exact .inr ⟨id, noted id replaced, concerns⟩

/-- A relation survives when an output is linked. -/
theorem link (d : Dependencies) (l : Ledger) (id : TargetId) (output : Dependency) :
    d.Survives (d.link id output) l := by
  intro stored member
  -- Adding the output without dependencies keeps every entry as it is.
  obtain ⟨held, there, same, value⟩ : ∃ kept ∈ (d.add output []).entries, kept.1 = stored.1 ∧
      kept.2 = stored.2 := by
    obtain ⟨kept, there, same, value⟩ := SortedMap.exists_mem_upsert
      (f := fun held => (held.getD {}).insertAll []) (k := output) member
    exact ⟨kept, there, same, or_self_iff.mp value⟩
  refine ⟨_, List.mem_map_of_mem there, same, fun node given => .inl ?_⟩
  simp only [value]
  split
  · exact SortedSet.mem_place_of_mem given
  · exact given

/-- A relation survives when a target gives way to an artefact, once that is noted. -/
theorem redirect (d : Dependencies) {id : TargetId} (replaced : l.isReplaced id = true)
    (artifact : Dependency) : d.Survives (d.redirect id artifact) l := by
  intro stored member
  refine ⟨_, List.mem_map_of_mem member, rfl, fun node given => ?_⟩
  by_cases concerns : node.isTarget id = true ∨ node.isOutputOf id = true
  · exact .inr ⟨id, replaced, concerns⟩
  · -- What does not concern the target passes the filter.
    simp only [not_or, Bool.not_eq_true] at concerns
    left
    simp only
    split
    · exact given
    · refine SortedSet.mem_place_of_mem (List.mem_filter.mpr ⟨given, ?_⟩)
      simp [concerns]

end Survives

/-- Linking an output brings in no node but that output. -/
theorem mem_keys_link {id : TargetId} {output node : Dependency}
    (member : node ∈ (d.link id output).keys) : node ∈ d.keys ∨ node = output := by
  -- The set of the output is made sure of, and all other sets stay where they are.
  simp only [SortedMap.keys, Dependencies.link, SortedMap.map, List.map_map, List.mem_map,
    Function.comp_apply] at member
  obtain ⟨stored, there, rfl⟩ := member
  rcases SortedMap.key_of_mem_upsert there with new | ⟨old, before, same⟩
  · exact .inr new
  · exact .inl (List.mem_map.mpr ⟨old, before, same⟩)

/-- Giving way to an artefact brings in no node, and takes none away. -/
theorem keys_redirect (d : Dependencies) (id : TargetId) (artifact : Dependency) :
    (d.redirect id artifact).keys = d.keys := by
  -- Only the sets are changed, not the nodes that they are held for.
  simp [SortedMap.keys, Dependencies.redirect, SortedMap.map, Function.comp_def]

end Dependencies

namespace Workspace

variable {w w' w'' : Workspace} {l l' : Ledger}

/-- Some target with a foreign build has the identity `id`. -/
def BuildsAt (w : Workspace) (id : TargetId) : Prop :=
  -- Targets are listed by identity, so at most one of them counts.
  ∃ t ∈ w.foreignBuildTargets.toList, t.identity = id.identity

/-- What is kept of the target that a workspace has under `id`. -/
structure TargetKept (w : Workspace) (id : TargetId) (before after : Target) : Prop where
  name : after.name = before.name
  foreignBuild : after.foreignBuild = before.foreignBuild
  -- Only what has the identity of a foreign build is made to run one.
  content : ¬ w.BuildsAt id →
    after.phases = before.phases ∧ after.product = before.product ∧ after.tags = before.tags

/-- What is kept of a project with the path that it is stored under. -/
structure ProjectKept (w : Workspace) (before after : Path × Project) : Prop where
  key : after.1 = before.1
  path : after.2.path = before.2.path
  name : after.2.name = before.2.name
  origin : after.2.origin = before.2.origin
  testPlans : after.2.testPlans = before.2.testPlans
  -- The targets are the same ones, in order of declaration.
  targets : List.Forall₂ (fun b a => a.1 = b.1 ∧ w.TargetKept ⟨before.1, b.1⟩ b.2 a.2)
    before.2.targets.entries after.2.targets.entries

/-- What is kept of a workspace by the time that a ledger has been written. -/
structure Retained (w w' : Workspace) (l : Ledger) : Prop where
  projects : List.Forall₂ w.ProjectKept w.projects.entries w'.projects.entries
  dependencies : w.dependencies.Survives w'.dependencies l
  -- New nodes are the outputs of foreign builds.
  added : ∀ node ∈ w'.dependencies.keys, node ∈ w.dependencies.keys ∨
    ∃ t ∈ w.foreignBuildTargets.toList, ∃ b, t.target.foreignBuild = some b ∧
      node = .foreignOutput t.name t.path b.output.linking

/-- What is kept of a target does not depend on whether it is pruned. -/
theorem targetKept_revived {id : TargetId} {before after : Target} :
    w.TargetKept id before after.revived ↔ w.TargetKept id before after :=
  -- The flag is no part of what has to be kept.
  ⟨fun kept => ⟨kept.name, kept.foreignBuild, kept.content⟩,
    fun kept => ⟨kept.name, kept.foreignBuild, kept.content⟩⟩

/-- What is kept of a project does not depend on which of its targets are pruned. -/
theorem projectKept_revived {before after : Path × Project} :
    w.ProjectKept before (after.1, after.2.seen Target.revived) ↔ w.ProjectKept before after := by
  -- Targets are revived one by one.
  have targets : List.Forall₂ (fun b a => a.1 = b.1 ∧ w.TargetKept ⟨before.1, b.1⟩ b.2 a.2)
        before.2.targets.entries (after.2.seen Target.revived).targets.entries ↔
      List.Forall₂ (fun b a => a.1 = b.1 ∧ w.TargetKept ⟨before.1, b.1⟩ b.2 a.2)
        before.2.targets.entries after.2.targets.entries := by
    simp only [Project.seen, DeclaredMap.map, List.forall₂_map_right_iff, targetKept_revived]
  constructor
  · intro kept
    exact ⟨kept.key, kept.path, kept.name, kept.origin, kept.testPlans, targets.mp kept.targets⟩
  · intro kept
    exact ⟨kept.key, kept.path, kept.name, kept.origin, kept.testPlans, targets.mpr kept.targets⟩

/-- What is kept of the projects is kept by whatever changes nothing but which targets are pruned.
-/
theorem projectsKept_of_revived (same : w''.revived = w'.revived)
    (kept : List.Forall₂ w.ProjectKept w.projects.entries w'.projects.entries) :
    List.Forall₂ w.ProjectKept w.projects.entries w''.projects.entries := by
  -- On both sides, what matters are the projects with all targets revived.
  have seen : ∀ v : Workspace, List.Forall₂ w.ProjectKept w.projects.entries v.projects.entries ↔
      List.Forall₂ w.ProjectKept w.projects.entries v.revived.entries := by
    intro v
    simp only [revived, SortedMap.map, List.forall₂_map_right_iff, projectKept_revived]
  rw [seen, same, ← seen]
  exact kept

/-- A target that stands where a foreign build is can be made to run it. -/
theorem TargetKept.aggregated {id : TargetId} {before after : Target}
    (kept : w.TargetKept id before after) (builds : w.BuildsAt id) (name : String)
    (b : ForeignBuild) : w.TargetKept id before (after.aggregated name b) :=
  -- Tags, product and scripts may change where a foreign build is.
  ⟨kept.name, kept.foreignBuild, fun none => absurd builds none⟩

/-- What is kept of the projects is kept by wiring a foreign build of the workspace. -/
theorem projectsKept_wire {id : TargetId} {b : ForeignBuild} (builds : w.BuildsAt id)
    (kept : List.Forall₂ w.ProjectKept w.projects.entries w'.projects.entries) :
    List.Forall₂ w.ProjectKept w.projects.entries (w'.wire id b).projects.entries := by
  -- The target that is changed stands under the identity of the foreign build.
  have same : ∀ k : TargetId, id.identity = k.identity → w.BuildsAt k := by
    intro k alike
    obtain ⟨t, listed, own⟩ := builds
    exact ⟨t, listed, own.trans alike⟩
  simp only [wire, modifyTarget, SortedMap.modify, List.forall₂_map_right_iff]
  refine kept.imp fun before after project => ?_
  obtain ⟨key, path, name, origin, plans, targets⟩ := project
  by_cases here : compare id.path after.1 = .eq
  · rw [if_pos (beq_iff_eq.mpr here)]
    refine ⟨key, path, name, origin, plans, ?_⟩
    simp only [DeclaredMap.modify, List.forall₂_map_right_iff]
    refine targets.imp fun t u pair => ⟨pair.1, ?_⟩
    obtain ⟨declared, target⟩ := pair
    split
    · rename_i named
      refine target.aggregated (same _ ?_) id.name b
      rw [TargetId.identity, TargetId.identity, ← key, ← declared, named,
        Path.compare_eq_iff.mp here]
    · exact target
  · rw [if_neg (by simpa using here)]
    exact ⟨key, path, name, origin, plans, targets⟩

namespace Retained

/-- A workspace retains all of itself. -/
theorem refl (w : Workspace) (l : Ledger) : w.Retained w l where
  -- Every project is its own counterpart, and so is every target.
  projects := by
    have targets : ∀ (path : Path) (entries : List (String × Target)),
        List.Forall₂ (fun b a => a.1 = b.1 ∧ w.TargetKept ⟨path, b.1⟩ b.2 a.2) entries entries :=
      fun path entries => List.forall₂_same.mpr fun _ _ => ⟨rfl, rfl, rfl, fun _ => ⟨rfl, rfl, rfl⟩⟩
    exact List.forall₂_same.mpr fun stored _ => ⟨rfl, rfl, rfl, rfl, rfl, targets _ _⟩
  dependencies := .refl w.dependencies l
  added _ member := .inl member

/-- Wiring keeps what is retained. -/
theorem wired (retained : w.Retained w' l) (same : w'.outline = w.outline) :
    w.Retained w'.wired l := by
  -- Each of the builds that are wired is one of the first workspace.
  refine wired_keeps (fun v => w.Retained v l) ?_ retained
  intro v id b member before
  rw [foreignBuilds_of_outline same] at member
  obtain ⟨t, listed, owns, rfl⟩ := mem_foreignBuilds.mp member
  refine ⟨projectsKept_wire ⟨t, listed, rfl⟩ before.projects,
    before.dependencies.trans (.link _ l _ _) fun _ => id, fun node given => ?_⟩
  rcases Dependencies.mem_keys_link given with old | rfl
  · exact before.added node old
  · exact .inr ⟨t, listed, b, owns, rfl⟩

/-- A focus keeps what is retained. -/
theorem focus (retained : w.Retained w' l) {s : Selection}
    (done : s.focus w' l = .ok (w'', l')) : w.Retained w'' l' := by
  have relation := s.dependencies_focus done
  obtain ⟨_, _, _, _, ledger⟩ := Selection.focus_eq_ok.mp done
  refine ⟨projectsKept_of_revived (s.revived_focus done) retained.projects, ?_, ?_⟩
  · -- What is requested has nothing to do with what is replaced.
    have noted : ∀ id, l.isReplaced id = true → l'.isReplaced id = true := by
      rw [ledger]
      exact fun _ => id
    rw [relation]
    exact retained.dependencies.trans (.refl _ l') noted
  · rw [relation]
    exact retained.added

/-- Replacing targets and noting that keeps what is retained. -/
theorem replaceAll (retained : w.Retained w' l) (rs : List Replacement) :
    w.Retained (rs.foldl replace w') (rs.foldl Ledger.recordReplacement l) := by
  -- Targets give way one after another.
  induction rs generalizing w' l with
  | nil => exact retained
  | cons r rest ih =>
    have replaced : (l.recordReplacement r).isReplaced r.target = true :=
      Ledger.isReplaced_recordReplacement.mpr (.inr rfl)
    refine ih ⟨projectsKept_of_revived (w'.revived_replaceAll [r]) retained.projects, ?_, ?_⟩
    · exact retained.dependencies.trans (.redirect _ replaced _) fun id before =>
        Ledger.isReplaced_recordReplacement.mpr (.inl before)
    · intro node given
      exact retained.added node (Dependencies.keys_redirect w'.dependencies _ _ ▸ given)

/-- A substitution keeps what is retained. -/
theorem substitute (retained : w.Retained w' l) {table : ArtifactTable}
    (done : w'.substitute table l = .ok (w'', l')) : w.Retained w'' l' := by
  have same := revived_substitute done
  have relation := dependencies_substitute done
  -- What is pruned after the replacements is no matter.
  have replaced := retained.replaceAll (w'.replaceable table)
  rw [← ledger_substitute done] at replaced
  refine ⟨projectsKept_of_revived same retained.projects, ?_, ?_⟩
  · rw [relation]
    exact replaced.dependencies
  · rw [relation]
    exact replaced.added

end Retained

end Workspace

namespace StandardPass

variable {w w' : Workspace} {l : Ledger} {o : Outcome}

/-- Every pass keeps what is retained of an earlier workspace. -/
theorem keeps_retained {pass : StandardPass} (retained : w.Retained w' l)
    (same : w'.outline = w.outline) (ran : (pass.run w' l).result = .ok o) :
    w.Retained o.workspace o.ledger := by
  -- One case for each pass; scheduling changes nothing at all.
  cases pass with
  | wiring =>
    cases ran
    exact retained.wired same
  | focus s =>
    obtain ⟨w'', l', done, rfl⟩ := run_focus_eq_ok.mp ran
    exact retained.focus done
  | caching table =>
    obtain ⟨w'', l', done, rfl⟩ := run_caching_eq_ok.mp ran
    exact retained.substitute done
  | scheduling probe =>
    obtain ⟨effects, _, rfl⟩ := run_scheduling_eq_ok.mp ran
    exact retained

end StandardPass

namespace Pipeline

variable {w : Workspace} {l : Ledger} {o : Outcome}

/-- Whatever standard passes a pipeline is assembled of, all projects and targets of the workspace
are there in the end, in their places, and targets without a foreign build have changed in nothing
but whether they are pruned; no node has lost its entry, new ones are outputs of foreign builds, and
the dependencies that are gone are those on targets that the ledger has replaced, and on their
outputs. -/
theorem nothing_deleted {passes : List StandardPass} {p : Pipeline}
    (assembled : assemble (passes.map StandardPass.toPass) = .ok p)
    (ran : (p.run w l).result = .ok o) : w.Retained o.workspace o.ledger := by
  -- The pipeline runs the passes that it was assembled of, and each keeps what is retained.
  obtain ⟨same, _⟩ := assemble_eq_ok assembled
  rw [run, same] at ran
  have kept : o.workspace.outline = w.outline ∧ w.Retained o.workspace o.ledger := by
    refine runAll_keeps (fun w' l' => w'.outline = w.outline ∧ w.Retained w' l') ?_
      ⟨rfl, .refl w l⟩ ran
    intro pass member w' l' o' before began
    obtain ⟨standard, _, rfl⟩ := List.mem_map.mp member
    exact ⟨(StandardPass.outline_run began).trans before.1,
      StandardPass.keeps_retained before.2 before.1 began⟩
  exact kept.2

/-- Of the small workspace nothing is deleted, and the one dependency that goes is that on the
library, which was replaced. -/
theorem nothing_deleted_of_sample : ∃ p,
    assemble ((Sample.settings.passes Sample.nothingThere).map StandardPass.toPass) = .ok p ∧
    (p.run Sample.workspace).result = .ok Sample.outcome ∧
    Sample.workspace.Retained Sample.outcome.workspace Sample.outcome.ledger ∧
    Sample.outcome.ledger.isReplaced ⟨Sample.project.path, "Core"⟩ = true ∧
    (Sample.workspace.dependencies.values.map fun nodes => nodes.toList) =
      [[.target "Core" Sample.project.path, .target "Kit" Sample.project.path]] ∧
    (Sample.outcome.workspace.dependencies.entries.map fun e => (e.1, e.2.toList)) =
      [(.target "App" Sample.project.path,
          [.target "Kit" Sample.project.path,
            .foreignOutput "Kit" Sample.project.path .static,
            .framework ⟨"/cache/Core"⟩ .dynamic]),
        (.foreignOutput "Kit" Sample.project.path .static, [])] := by
  -- The run on the small workspace is known to succeed, and the rest is read off its outcome.
  have assembled : assemble ((Sample.settings.passes Sample.nothingThere).map StandardPass.toPass) =
      .ok (Sample.settings.pipeline Sample.nothingThere) := rfl
  exact ⟨_, assembled, Sample.run_workspace, nothing_deleted assembled Sample.run_workspace,
    by decide, by decide, by decide⟩

end Pipeline

end BuildGraph
