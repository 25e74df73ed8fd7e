import BuildGraph.Proofs.Composition
import BuildGraph.Proofs.Scheduling
import BuildGraph.Proofs.WiringAndFocus

/-! A run fails where its focus does on the workspace it is given, or else where the probe does;
after a focus, no substitution fails. -/

namespace BuildGraph

open Relation

namespace Selection

variable {s : Selection} {w : Workspace} {l : Ledger}

/-- A focus fails in the same way on a wired workspace. -/
theorem focus_wired_eq_error {e : PassError} :
    s.focus w.wired l = .error e ↔ s.focus w l = .error e := by
  -- Wiring maps what a focus makes, and leaves its errors alone.
  rw [focus_wired]
  cases s.focus w l <;> simp [Except.map]

/-- A focus fails in one of three ways. -/
theorem error_of_focus {e : PassError} (failed : s.focus w l = .error e) :
    (∃ plan, e = .testPlanNotFound plan) ∨ (∃ names, e = .targetsNotFound names) ∨
      ∃ loop, e = .cyclicDependency loop := by
  rcases focus_eq_error.mp failed with refused | ⟨_, loop, _, rfl⟩
  · -- A selection is refused for its test plan, or for the names that it includes.
    rw [refusal?] at refused
    split at refused
    · cases refused
      exact .inl ⟨_, rfl⟩
    · split at refused
      · cases refused
      · cases refused
        exact .inr (.inl ⟨_, rfl⟩)
  · exact .inr (.inr ⟨loop, rfl⟩)

end Selection

namespace Pipeline

variable {w : Workspace} {l : Ledger}

/-- A run fails as its first part does, or as the rest does from there. -/
theorem runAll_append_eq_error {first rest : List Pass} {e : PassError} :
    (runAll w l (first ++ rest)).result = .error e ↔ (runAll w l first).result = .error e ∨
      ∃ mid, (runAll w l first).result = .ok mid ∧
        (runAll mid.workspace mid.ledger rest).result = .error e := by
  -- Putting the side effects together does not fail.
  rw [runAll_append, Attempt.result_bind_eq_error]
  refine or_congr_right (exists_congr fun mid => and_congr_right fun _ => ?_)
  rw [Attempt.result_bind_eq_error]
  simp

/-- A run of one pass fails as that does. -/
theorem runAll_singleton_eq_error {pass : Pass} {e : PassError} :
    (runAll w l [pass]).result = .error e ↔ (pass.run w l).result = .error e := by
  -- There is no pass behind it that could fail instead.
  rw [runAll_cons_eq_error]
  simp [runAll]

/-- Where no live target leads to a loop, any number of substitutions succeed. -/
theorem exists_run_of_caching (free : w.LoopFree) (tables : List ArtifactTable) :
    ∃ o, (runAll w l (tables.map fun table => (StandardPass.caching table).toPass)).result =
      .ok o := by
  -- Each substitution succeeds, and brings in no loops.
  induction tables generalizing w l with
  | nil => exact ⟨⟨w, [], l⟩, rfl⟩
  | cons table rest ih =>
    obtain ⟨w', l', done⟩ := free.exists_substitute table l
    have later : w'.LoopFree := free.narrow (Workspace.narrows_of_substitute done)
    obtain ⟨o, rested⟩ := ih (l := l') later
    exact ⟨o, runAll_caching done rested⟩

/-- What comes before scheduling fails exactly as the focus does on the workspace that is given. -/
theorem run_until_scheduling_eq_error {s : Settings} {e : PassError} :
    (runAll w l ([StandardPass.wiring, .focus s.selection, .caching s.artifacts].map
      StandardPass.toPass)).result = .error e ↔ s.selection.focus w l = .error e := by
  -- Of the three passes, only the focus can fail.
  simp only [List.map_cons, List.map_nil, runAll_cons_eq_error, StandardPass.run_toPass]
  constructor
  · rintro (failed | ⟨o, wired, failed | ⟨focused, began, failed | ⟨_, _, failed⟩⟩⟩)
    · -- Wiring does not fail.
      cases failed
    · cases wired
      exact Selection.focus_wired_eq_error.mp (StandardPass.run_focus_eq_error.mp failed)
    · -- After the focus, the substitution does not fail.
      obtain ⟨w', l', done, rfl⟩ := StandardPass.run_focus_eq_ok.mp began
      have free : w'.LoopFree := (Selection.focused_of_focus done).loopFree
      obtain ⟨w'', l'', substituted⟩ := free.exists_substitute s.artifacts l'
      have failed := StandardPass.run_caching_eq_error.mp failed
      simp [substituted] at failed
    · cases failed
  · -- The focus comes first after the wiring, and fails there as it does before.
    intro failed
    have wired : ((StandardPass.focus s.selection).run w.wired l).result = .error e :=
      StandardPass.run_focus_eq_error.mpr (Selection.focus_wired_eq_error.mpr failed)
    exact .inr ⟨_, StandardPass.run_wiring, .inl wired⟩

/-- After a focus, any number of substitutions succeed; and a whole run fails as its focus does on
the workspace that is given, or else because the artefact of some live foreign build that nothing
stands in for cannot be told about, and then says so of the first of these. -/
theorem failures_of_run (w : Workspace) (l : Ledger) :
    (∀ (s : Selection) (o : Outcome), ((StandardPass.focus s).run w l).result = .ok o →
      ∀ tables : List ArtifactTable, ∃ o', (runAll o.workspace o.ledger
        (tables.map fun table => (StandardPass.caching table).toPass)).result = .ok o') ∧
    ∀ (s : Settings) (probe : Probe) (e : PassError),
      ((s.pipeline probe).run w l).result = .error e ↔
        ((StandardPass.focus s.selection).run w l).result = .error e ∧
            ((∃ plan, e = .testPlanNotFound plan) ∨ (∃ names, e = .targetsNotFound names) ∨
              ∃ loop, e = .cyclicDependency loop) ∨
        ∃ mid, (runAll w l ([StandardPass.wiring, .focus s.selection, .caching s.artifacts].map
            StandardPass.toPass)).result = .ok mid ∧
          ∃ t ∈ mid.workspace.allTargets.toList, ∃ b cause,
            Workspace.Active mid.ledger t b ∧ probe (Probe.place t.path b) = .error cause ∧
            e = .artifactProbe (Probe.place t.path b) cause ∧
            ∀ u ∈ mid.workspace.allTargets.toList, compare u t = .lt →
              ∀ c, Workspace.Active mid.ledger u c →
                ∃ present, probe (Probe.place u.path c) = .ok present := by
  -- What a focus leaves has no loops, and only the focus and the schedule of a whole run can fail.
  refine ⟨fun s o began tables => ?_, fun s probe e => ?_⟩
  · obtain ⟨w', l', done, rfl⟩ := StandardPass.run_focus_eq_ok.mp began
    exact exists_run_of_caching (Selection.focused_of_focus done).loopFree tables
  · -- The run is what comes before scheduling, and scheduling.
    have split : (s.pipeline probe).run w l = runAll w l
        ([StandardPass.wiring, .focus s.selection, .caching s.artifacts].map StandardPass.toPass ++
          [(StandardPass.scheduling probe).toPass]) := rfl
    rw [split, runAll_append_eq_error, run_until_scheduling_eq_error]
    simp only [runAll_singleton_eq_error, StandardPass.run_toPass,
      StandardPass.run_focus_eq_error, StandardPass.run_scheduling_eq_error,
      Workspace.schedule_eq_error_iff]
    exact or_congr_left ⟨fun failed => ⟨failed, Selection.error_of_focus failed⟩, And.left⟩

/-- After its focus, the small workspace can be substituted twice; and a run on it fails where it is
asked for a target that it has not. -/
theorem failures_of_sample :
    (∃ o, (runAll Sample.focused {} ([Sample.artifacts, Sample.artifacts].map fun table =>
      (StandardPass.caching table).toPass)).result = .ok o) ∧
    (({ included := .ofList ["Tool"] : Settings }.pipeline Sample.nothingThere).run
      Sample.workspace).result = .error (.targetsNotFound ["Tool"]) := by
  constructor
  · have began : ((StandardPass.focus Sample.settings.selection).run Sample.workspace.wired
        {}).result = .ok ⟨Sample.focused, [], {}⟩ :=
      StandardPass.run_focus_eq_ok.mpr ⟨_, _, Sample.focus_workspace, rfl⟩
    exact (failures_of_run Sample.workspace.wired {}).1 _ _ began
      [Sample.artifacts, Sample.artifacts]
  · -- The name is missing before any loop is looked for.
    have refused : Selection.refusal? { included := .ofList ["Tool"] } Sample.workspace =
        some (.targetsNotFound ["Tool"]) := rfl
    refine ((failures_of_run Sample.workspace {}).2 _ _ _).mpr (.inl ⟨?_, .inr (.inl ⟨_, rfl⟩)⟩)
    exact StandardPass.run_focus_eq_error.mpr (Selection.focus_eq_error.mpr (.inl refused))

end Pipeline

end BuildGraph
