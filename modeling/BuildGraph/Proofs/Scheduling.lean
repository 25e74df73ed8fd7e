import Mathlib.Data.List.Basic
import BuildGraph.Proofs.Trace

/-! The commands of a run are those of foreign builds that are live and not replaced, and whose
artefacts are missing. -/

namespace BuildGraph

namespace Probe

/-- The place where a foreign build of the project at `path` leaves its artefact. -/
def place (path : Path) (b : ForeignBuild) : Path :=
  -- An absolute output stands for itself.
  path.join b.output.path

/-- The reason for which it cannot be told whether the artefact of a foreign build is there. -/
def refusal? (probe : Probe) (build : Path × ForeignBuild) : Option PassError :=
  -- A clear answer is no reason, be it yes or no.
  match probe (place build.1 build.2) with
  | .ok _ => none
  | .error cause => some (.artifactProbe (place build.1 build.2) cause)

/-- Whether the artefact of a foreign build is known to be missing. -/
def misses (probe : Probe) (build : Path × ForeignBuild) : Bool :=
  -- What cannot be told is not known to be missing.
  match probe (place build.1 build.2) with
  | .ok present => !present
  | .error _ => false

end Probe

namespace Workspace

variable {w : Workspace} {l : Ledger} {probe : Probe}

/-- There are commands for all builds whose artefacts are missing, in order, unless the probe fails
for some build: then the first such failure is all there is. -/
theorem result_commands (probe : Probe) (builds : List (Path × ForeignBuild)) :
    (commands probe builds).result =
      match builds.findSome? probe.refusal? with
      | some e => .error e
      | none => .ok ((builds.filter probe.misses).map fun b => buildCommand b.1 b.2.script) := by
  -- The builds are asked about one by one, and a failure ends the asking.
  induction builds with
  | nil => rfl
  | cons first rest ih =>
    obtain ⟨path, b⟩ := first
    simp only [commands, ForeignBuild.command?, Probe.ask, bind, Attempt.andThen, pure,
      Attempt.ofExcept, ih, List.findSome?_cons, Probe.refusal?, Probe.place]
    -- Whether the first artefact is there, is missing, or cannot be told about.
    cases answer : probe (path.join b.output.path) with
    | error cause => rfl
    | ok present =>
      cases refused : rest.findSome? probe.refusal? with
      | some e => cases present <;> simp
      | none => cases present <;> simp [Probe.misses, Probe.place, answer]

/-- A target that is neither pruned nor replaced is built by a script of its own. -/
def Active (l : Ledger) (t : OwnedTarget) (b : ForeignBuild) : Prop :=
  -- The ledger is asked by identity, not by name alone.
  t.target.foreignBuild = some b ∧ t.target.pruned = false ∧ l.replacementFor? t.id = none

/-- The build of a target if it is active, with the path of its project. -/
def activeBuild? (l : Ledger) (t : OwnedTarget) : Option (Path × ForeignBuild) :=
  -- This is the test of the schedule for one target.
  if t.target.pruned = false ∧ l.replacementFor? t.id = none then
    t.target.foreignBuild.map (t.path, ·)
  else none

/-- The active build of a target is the one that it carries. -/
theorem activeBuild?_eq_some_iff {t : OwnedTarget} {build : Path × ForeignBuild} :
    activeBuild? l t = some build ↔ t.path = build.1 ∧ Active l t build.2 := by
  -- The path and the build come from the target, unless it is pruned or replaced.
  obtain ⟨path, b⟩ := build
  rw [activeBuild?, Active]
  split
  · rename_i active
    simp only [Option.map_eq_some_iff, Prod.mk.injEq]
    constructor
    · rintro ⟨_, carried, here, rfl⟩
      exact ⟨here, carried, active⟩
    · rintro ⟨here, carried, _⟩
      exact ⟨b, carried, here, rfl⟩
  · rename_i passive
    simp [passive]

/-- The active builds are those of all targets, in their order. -/
theorem activeBuilds_eq (w : Workspace) (l : Ledger) :
    w.activeBuilds l = w.allTargets.toList.filterMap (activeBuild? l) := by
  -- What is filtered out first has no build, or is pruned or replaced.
  simp only [activeBuilds, foreignBuildTargets, SortedSet.filter]
  induction w.allTargets.toList with
  | nil => rfl
  | cons t rest ih =>
    rw [List.filterMap_cons, ← ih]
    cases carried : t.target.foreignBuild <;> cases pruned : t.target.pruned <;>
      cases replaced : l.replacementFor? t.id <;>
      simp [activeBuild?, Ledger.isReplaced, carried, pruned, replaced]

/-- Where projects are the same, so are the active builds, if the same ones of the live targets are
noted to be replaced. -/
theorem activeBuilds_congr {w' : Workspace} {l' : Ledger} (projects : w'.projects = w.projects)
    (noted : ∀ t ∈ w.owned, t.target.pruned = false → l'.isReplaced t.id = l.isReplaced t.id) :
    w'.activeBuilds l' = w.activeBuilds l := by
  have targets : w'.allTargets = w.allTargets := by simp only [allTargets, owned, projects]
  rw [activeBuilds_eq, activeBuilds_eq, targets]
  refine List.filterMap_congr fun t member => ?_
  -- Only of a live target does it matter whether it is replaced.
  by_cases live : t.target.pruned = false
  · have same := noted t (SortedSet.mem_of_mem_collect member) live
    simp only [Ledger.isReplaced, Option.isSome_eq_isSome] at same
    simp only [activeBuild?, ← Option.isNone_iff_eq_none, same]
  · simp [activeBuild?, live]

/-- A schedule has the commands of the active builds whose artefacts are missing. -/
theorem schedule_eq_ok {effects : List SideEffect} :
    (w.schedule l probe).result = .ok effects ↔
      (w.activeBuilds l).findSome? probe.refusal? = none ∧
        effects = ((w.activeBuilds l).filter probe.misses).map fun b =>
          buildCommand b.1 b.2.script := by
  -- The commands come out only if nothing is refused.
  rw [schedule, result_commands]
  split <;> rename_i refused <;> simp [refused, eq_comm]

/-- A schedule succeeds where the probe always answers. -/
theorem exists_schedule (answers : ∀ path, ∃ present, probe path = .ok present) :
    ∃ effects, (w.schedule l probe).result = .ok effects := by
  refine ⟨_, schedule_eq_ok.mpr ⟨?_, rfl⟩⟩
  -- No build is refused.
  rw [List.findSome?_eq_none_iff]
  intro build _
  obtain ⟨present, answered⟩ := answers (Probe.place build.1 build.2)
  simp [Probe.refusal?, answered]

/-- A schedule fails as the probe does for the first active build that it fails for. -/
theorem schedule_eq_error {e : PassError} :
    (w.schedule l probe).result = .error e ↔
      (w.activeBuilds l).findSome? probe.refusal? = some e := by
  -- The first refusal is all that comes out.
  rw [schedule, result_commands]
  split <;> rename_i refused <;> simp [refused]

/-- A schedule fails where the artefact of some active build cannot be told about, and says so of
the first of them in the order of their targets. -/
theorem schedule_eq_error_iff {e : PassError} :
    (w.schedule l probe).result = .error e ↔ ∃ t ∈ w.allTargets.toList, ∃ b cause, Active l t b ∧
      probe (Probe.place t.path b) = .error cause ∧
      e = .artifactProbe (Probe.place t.path b) cause ∧
      ∀ u ∈ w.allTargets.toList, compare u t = .lt → ∀ c, Active l u c →
        ∃ present, probe (Probe.place u.path c) = .ok present := by
  -- A target is passed over when it has no active build, or the probe answers for that.
  have passed : ∀ u : OwnedTarget, (activeBuild? l u).bind probe.refusal? = none ↔
      ∀ c, Active l u c → ∃ present, probe (Probe.place u.path c) = .ok present := by
    intro u
    rw [Option.bind_eq_none_iff]
    constructor
    · -- A probe that does not refuse an active build has answered for it.
      intro none c active
      have refused := none (u.path, c) (activeBuild?_eq_some_iff.mpr ⟨rfl, active⟩)
      rw [Probe.refusal?] at refused
      split at refused
      · exact ⟨_, ‹_›⟩
      · cases refused
    · intro answers build found
      obtain ⟨here, active⟩ := activeBuild?_eq_some_iff.mp found
      obtain ⟨present, answered⟩ := answers build.2 active
      rw [here] at answered
      simp [Probe.refusal?, answered]
  rw [schedule_eq_error, activeBuilds_eq, ← List.head?_filterMap, List.filterMap_filterMap,
    List.head?_filterMap, SortedSet.findSome?_eq_some_iff]
  refine exists_congr fun t => and_congr_right fun _ => ?_
  simp only [passed]
  -- What is left is the refusal of the target itself, on both sides.
  constructor
  · rintro ⟨refused, before⟩
    obtain ⟨build, found, refused⟩ := Option.bind_eq_some_iff.mp refused
    obtain ⟨here, active⟩ := activeBuild?_eq_some_iff.mp found
    rw [Probe.refusal?, ← here] at refused
    split at refused
    · cases refused
    · rename_i cause answered
      cases refused
      exact ⟨build.2, cause, active, answered, rfl, before⟩
  · rintro ⟨b, cause, active, answered, rfl, before⟩
    refine ⟨Option.bind_eq_some_iff.mpr ⟨(t.path, b), ?_, ?_⟩, before⟩
    · exact activeBuild?_eq_some_iff.mpr ⟨rfl, active⟩
    · simp [Probe.refusal?, answered]

end Workspace

namespace StandardPass

variable {w : Workspace} {l : Ledger} {o : Outcome}

/-- A pass asks for no work unless it schedules. -/
theorem sideEffects_of_stage {pass : StandardPass} (other : pass.stage ≠ .sideEffects)
    (ran : (pass.run w l).result = .ok o) : o.sideEffects = [] := by
  -- All other passes hand on an empty list.
  cases pass with
  | wiring =>
    cases ran
    rfl
  | focus s =>
    obtain ⟨_, _, _, rfl⟩ := run_focus_eq_ok.mp ran
    rfl
  | caching table =>
    obtain ⟨_, _, _, rfl⟩ := run_caching_eq_ok.mp ran
    rfl
  | scheduling probe => exact absurd rfl other

/-- A pass that schedules hands on what it was given. -/
theorem handed_on_of_stage {pass : StandardPass} (last : pass.stage = .sideEffects)
    (ran : (pass.run w l).result = .ok o) : o.workspace = w ∧ o.ledger = l := by
  -- There is one pass of this stage.
  cases pass with
  | scheduling probe =>
    obtain ⟨_, _, rfl⟩ := run_scheduling_eq_ok.mp ran
    exact ⟨rfl, rfl⟩
  | _ => cases last

/-- A pass asks for nothing but the builds that are active in what it hands on. -/
theorem active_of_mem_sideEffects {pass : StandardPass} (ran : (pass.run w l).result = .ok o)
    {e : SideEffect} (emitted : e ∈ o.sideEffects) :
    ∃ build ∈ o.workspace.activeBuilds o.ledger, e = buildCommand build.1 build.2.script := by
  -- The commands of a schedule are those of some of the active builds.
  cases pass with
  | scheduling probe =>
    obtain ⟨effects, scheduled, rfl⟩ := run_scheduling_eq_ok.mp ran
    obtain ⟨_, rfl⟩ := Workspace.schedule_eq_ok.mp scheduled
    obtain ⟨build, member, rfl⟩ := List.mem_map.mp emitted
    exact ⟨build, (List.mem_filter.mp member).1, rfl⟩
  | _ =>
    rw [sideEffects_of_stage (by simp [stage]) ran] at emitted
    cases emitted

end StandardPass

namespace Pipeline

variable {w : Workspace} {l : Ledger} {o : Outcome}

/-- Passes that only schedule hand on what they were given. -/
theorem runAll_handed_on {passes : List StandardPass}
    (scheduling : ∀ pass ∈ passes, pass.stage = .sideEffects)
    (ran : (runAll w l (passes.map StandardPass.toPass)).result = .ok o) :
    o.workspace = w ∧ o.ledger = l := by
  -- The invariant is that nothing has changed.
  refine runAll_keeps (fun w' l' => w' = w ∧ l' = l) ?_ ⟨rfl, rfl⟩ ran
  intro pass member w' l' o' before began
  obtain ⟨standard, given, rfl⟩ := List.mem_map.mp member
  obtain ⟨same, also⟩ := StandardPass.handed_on_of_stage (scheduling standard given) began
  exact ⟨same.trans before.1, also.trans before.2⟩

/-- Where stages never decrease, all side effects are the commands of builds that are active in the
end. -/
theorem active_of_mem_sideEffects {passes : List StandardPass}
    (ordered : passes.Pairwise fun a b => a.stage.rank ≤ b.stage.rank)
    (ran : (runAll w l (passes.map StandardPass.toPass)).result = .ok o) {e : SideEffect}
    (emitted : e ∈ o.sideEffects) :
    ∃ build ∈ o.workspace.activeBuilds o.ledger, e = buildCommand build.1 build.2.script := by
  -- An effect comes from the first pass or from the rest; after a pass that schedules, nothing can
  -- change what is active any more.
  induction passes generalizing w l o with
  | nil =>
    cases ran
    cases emitted
  | cons pass rest ih =>
    obtain ⟨first, last, began, rested, rfl⟩ := runAll_cons_eq_ok.mp ran
    obtain ⟨later, tail⟩ := List.pairwise_cons.mp ordered
    rcases List.mem_append.mp emitted with early | late
    · -- The pass asks for work, so that it schedules, and so do all behind it.
      have scheduling : pass.stage = .sideEffects := by
        by_cases here : pass.stage = .sideEffects
        · exact here
        · rw [StandardPass.sideEffects_of_stage here began] at early
          cases early
      have others : ∀ behind ∈ rest, behind.stage = .sideEffects := by
        intro behind member
        have ranks := later behind member
        rw [scheduling] at ranks
        revert ranks
        cases behind.stage <;> decide
      obtain ⟨same, also⟩ := runAll_handed_on others rested
      have active := StandardPass.active_of_mem_sideEffects began early
      simpa only [same, also] using active
    · have active := ih tail rested late
      exact active

/-- Whatever standard passes a pipeline is assembled of, it asks for no work but that of targets
that are built by a script of their own, and that are neither pruned nor replaced in the end. -/
theorem sideEffects_of_live_builds {passes : List StandardPass} {p : Pipeline}
    (assembled : assemble (passes.map StandardPass.toPass) = .ok p)
    (ran : (p.run w l).result = .ok o) :
    ∀ e ∈ o.sideEffects, ∃ t ∈ o.workspace.allTargets.toList, ∃ b,
      t.target.foreignBuild = some b ∧ t.target.pruned = false ∧
        o.ledger.replacementFor? t.id = none ∧ e = buildCommand t.path b.script := by
  -- An active build is one of a target that is neither pruned nor replaced.
  intro e emitted
  obtain ⟨same, ordered⟩ := assemble_eq_ok assembled
  rw [run, same] at ran
  rw [List.pairwise_map] at ordered
  obtain ⟨build, active, rfl⟩ := active_of_mem_sideEffects ordered ran emitted
  rw [Workspace.activeBuilds_eq] at active
  obtain ⟨t, member, found⟩ := List.mem_filterMap.mp active
  obtain ⟨here, carried, live, kept⟩ := Workspace.activeBuild?_eq_some_iff.mp found
  exact ⟨t, member, build.2, carried, live, kept, by rw [here]⟩

/-- The run on the small workspace asks for its foreign build. -/
theorem sideEffects_of_sample : ∃ p,
    assemble ((Sample.settings.passes Sample.nothingThere).map StandardPass.toPass) = .ok p ∧
    (p.run Sample.workspace).result = .ok Sample.outcome ∧ Sample.outcome.sideEffects ≠ [] ∧
    ∀ e ∈ Sample.outcome.sideEffects, ∃ t ∈ Sample.outcome.workspace.allTargets.toList, ∃ b,
      t.target.foreignBuild = some b ∧ t.target.pruned = false ∧
        Sample.outcome.ledger.replacementFor? t.id = none ∧ e = buildCommand t.path b.script := by
  -- The passes of the settings are in order, so that a pipeline is assembled of them.
  have assembled : assemble ((Sample.settings.passes Sample.nothingThere).map StandardPass.toPass) =
      .ok (Sample.settings.pipeline Sample.nothingThere) := rfl
  exact ⟨_, assembled, Sample.run_workspace, by decide,
    sideEffects_of_live_builds assembled Sample.run_workspace⟩

end Pipeline

end BuildGraph
