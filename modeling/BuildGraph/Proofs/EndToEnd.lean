import BuildGraph.Proofs.Remaining
import BuildGraph.Proofs.Sources

/-! What a whole run means for the workspace that it is given: which targets it leaves live, and
which foreign builds it asks for. -/

namespace BuildGraph

open Relation

namespace Settings

/-- A target of a local project that passes the filter: its name is not excluded, and it is included
where names are; otherwise it belongs to a test plan of the chosen name, where one is chosen. -/
def Selects (s : Settings) (w : Workspace) (t : OwnedTarget) : Prop :=
  -- A test plan has no say where names are included.
  t ∈ w.owned ∧ t.project.origin = .local ∧ t.name ∉ s.excluded.toList ∧
    if s.included.toList = [] then
      ∀ plan, s.testPlan = some plan →
        ∃ p ∈ w.testPlans, p.name = plan ∧ ∃ id ∈ p.targets, (id == t.id) = true
    else t.name ∈ s.included.toList

/-- A target that is selected, or reached from one along target edges. -/
def Covers (s : Settings) (w : Workspace) (t : OwnedTarget) : Prop :=
  -- The relation is that of the input, before anything is wired or pruned.
  ∃ r, s.Selects w r ∧ ReflTransGen w.DependsOn r t

/-- A covered target whose name has an artefact. -/
def Caches (s : Settings) (w : Workspace) (t : OwnedTarget) : Prop :=
  -- The artefact of a target that is not covered has no effect.
  s.Covers w t ∧ (s.artifacts.get? t.name).isSome = true

/-- A target that building starts from: a selected one where names are included or a test plan is
chosen, and otherwise a covered one that no covered target depends on. -/
def StartsFrom (s : Settings) (w : Workspace) (t : OwnedTarget) : Prop :=
  -- An explicit selection starts from what it names, even where one of these needs another.
  if s.included.toList ≠ [] ∨ s.testPlan ≠ none then s.Selects w t
  else s.Covers w t ∧ ∀ u, s.Covers w u → ¬ w.DependsOn u t

/-- A target that is reached, along target edges and past no cached target, from one that building
starts from and that is not cached itself. -/
def Builds (s : Settings) (w : Workspace) (t : OwnedTarget) : Prop :=
  -- The walk stays clear of cached targets from its root on.
  ∃ r, s.StartsFrom w r ∧ ¬ s.Caches w r ∧
    ReflTransGen (fun a b => w.DependsOn a b ∧ ¬ s.Caches w b) r t

variable {s : Settings} {w w' : Workspace} {l : Ledger} {t : OwnedTarget} {k : Identity}

/-- The targets that a selection has as its sources. -/
abbrev sources (s : Settings) (w : Workspace) : List OwnedTarget :=
  -- They are pairwise different, since they form a set.
  (s.selection.sources w).toList

/-- The sources of a selection are the targets that the settings select. -/
theorem mem_sources_iff (tidy : w.Tidy) : t ∈ s.sources w ↔ s.Selects w t := by
  -- All targets of a tidy workspace are looked at, and those that are picked stay.
  rw [sources, Selection.mem_sources_iff, Selection.Picks, tidy.mem_allTargets]
  rfl

/-- The sources of a selection are targets of the workspace. -/
theorem sources_owned (tidy : w.Tidy) : ∀ t ∈ s.sources w, t ∈ w.owned :=
  -- Only targets of the workspace can be selected.
  fun _ member => ((mem_sources_iff tidy).mp member).1

/-- Covered targets are targets of the workspace. -/
theorem Covers.mem_owned (covered : s.Covers w t) : t ∈ w.owned := by
  obtain ⟨r, selected, path⟩ := covered
  -- A walk ends where it starts, or at what something depends on.
  cases path with
  | refl => exact selected.1
  | tail _ next => exact next.mem_owned

/-- What the sources need belongs to covered targets, and the other way round. -/
theorem exists_covers_iff (tidy : w.Tidy) :
    (∃ t, s.Covers w t ∧ t.identity = k) ↔ w.Needs (s.sources w) k := by
  -- The sources are the selected targets, and walks are the same on both sides.
  have walk := fun r : OwnedTarget =>
    Workspace.reflTransGen_iff_dependsOn (w := w) (fun _ => True) (t := r) (k := k)
  simp only [and_true] at walk
  constructor
  · rintro ⟨t, ⟨r, selected, path⟩, same⟩
    exact ⟨r, (mem_sources_iff tidy).mpr selected, (walk r).mpr ⟨t, path, same⟩⟩
  · rintro ⟨r, given, path⟩
    obtain ⟨t, path, same⟩ := (walk r).mp path
    exact ⟨t, ⟨r, (mem_sources_iff tidy).mp given, path⟩, same⟩

/-- A target is covered when its identity is needed. -/
theorem covers_iff (tidy : w.Tidy) (member : t ∈ w.owned) :
    s.Covers w t ↔ w.Needs (s.sources w) t.identity := by
  -- In a tidy workspace, a target is told by its identity.
  rw [← exists_covers_iff tidy, tidy.exists_identity_iff (fun _ => Covers.mem_owned) member]

/-- A target is cached when its identity is. -/
theorem caches_iff (tidy : w.Tidy) (member : t ∈ w.owned) :
    s.Caches w t ↔ w.Cached (s.sources w) s.artifacts t.identity :=
  -- The table is asked for the name on both sides.
  and_congr_left fun _ => covers_iff tidy member

/-- A selection is explicit when names are included or a test plan is chosen. -/
theorem isExplicit_iff :
    s.selection.isExplicit = true ↔ s.included.toList ≠ [] ∨ s.testPlan ≠ none :=
  -- The selection of settings has the names and the plan of these.
  Selection.isExplicit_iff

/-- The ledger that the focus leaves in a run that starts with an empty one. -/
def focusLedger (s : Settings) (w : Workspace) : Ledger :=
  -- The selection sees the wired workspace, since that is what the focus is run on.
  Ledger.recordRequested {} (s.selection.requested w.wired)

/-- What is requested are the sources of an explicit selection. -/
theorem isRequested_focusLedger {id : TargetId} : (s.focusLedger w).isRequested id = true ↔
    s.selection.isExplicit = true ∧ ∃ t ∈ s.sources w, t.identity = id.identity := by
  -- Wiring changes no identity of a source.
  have ids := s.selection.sources_id_of_outline w.outline_wired
  rw [focusLedger, Ledger.isRequested_recordRequested, Selection.requested, ids]
  split
  · rename_i explicit
    simp [explicit, OwnedTarget.identity]
  · rename_i implicit
    simp [implicit]

/-- The roots are what building starts from. -/
theorem exists_startsFrom_iff (tidy : w.Tidy) :
    (∃ t, s.StartsFrom w t ∧ t.identity = k) ↔ w.Rooted (s.sources w) (s.focusLedger w) k := by
  -- An explicit selection starts from its sources, and what nothing needed leads to is one of
  -- these; any other starts from the top.
  simp only [StartsFrom, ← isExplicit_iff]
  by_cases explicit : s.selection.isExplicit = true
  · -- The requested targets are the sources.
    have requested : ∀ id, (s.focusLedger w).isRequested id = true ↔
        ∃ t ∈ s.sources w, t.identity = id.identity := by
      intro id
      rw [isRequested_focusLedger, and_iff_right explicit]
    rw [Workspace.rooted_iff_of_requested requested]
    simp only [explicit, if_true, mem_sources_iff tidy]
  · simp only [Workspace.Rooted, isRequested_focusLedger, explicit, Bool.false_eq_true, if_false,
      false_and, and_false, exists_const, or_false]
    constructor
    · -- What leads to the target belongs to something covered that depends on it.
      rintro ⟨t, ⟨covered, highest⟩, rfl⟩
      refine ⟨(exists_covers_iff tidy).mp ⟨t, covered, rfl⟩, fun a needed leads => ?_⟩
      obtain ⟨u, also, rfl⟩ := (exists_covers_iff tidy).mpr needed
      obtain ⟨v, next, same⟩ := Workspace.leads_iff_dependsOn.mp leads
      rw [tidy.eq_of_identity next.mem_owned covered.mem_owned same] at next
      exact highest u also next
    · rintro ⟨needed, highest⟩
      obtain ⟨t, covered, rfl⟩ := (exists_covers_iff tidy).mpr needed
      refine ⟨t, ⟨covered, fun u also next => ?_⟩, rfl⟩
      have leads := Workspace.leads_iff_dependsOn.mpr ⟨t, next, rfl⟩
      exact highest u.identity ((exists_covers_iff tidy).mp ⟨u, also, rfl⟩) leads

/-- What building starts from is a target of the workspace. -/
theorem StartsFrom.mem_owned (start : s.StartsFrom w t) : t ∈ w.owned := by
  -- Whichever way the start is found, it is among the targets.
  rw [StartsFrom] at start
  split at start
  · exact start.1
  · exact start.1.mem_owned

/-- What is built is a target of the workspace. -/
theorem Builds.mem_owned (built : s.Builds w t) : t ∈ w.owned := by
  -- A walk ends where it starts, or at what something depends on.
  obtain ⟨r, start, _, path⟩ := built
  cases path with
  | refl => exact start.mem_owned
  | tail _ next => exact next.1.mem_owned

/-- What remains belongs to targets that are built, and the other way round. -/
theorem exists_builds_iff (tidy : w.Tidy) : (∃ t, s.Builds w t ∧ t.identity = k) ↔
    w.Remains (s.sources w) s.artifacts (s.focusLedger w) k := by
  -- Steps past cached targets are steps past cached identities.
  have steps : (fun a b => w.DependsOn a b ∧ ¬ s.Caches w b) =
      fun a b => w.DependsOn a b ∧ ¬ w.Cached (s.sources w) s.artifacts b.identity := by
    funext a b
    exact propext (and_congr_right fun next => not_congr (caches_iff tidy next.mem_owned))
  have walk := fun r : OwnedTarget => Workspace.reflTransGen_iff_dependsOn (w := w)
    (fun b => ¬ w.Cached (s.sources w) s.artifacts b) (t := r) (k := k)
  constructor
  · rintro ⟨t, ⟨r, start, kept, path⟩, same⟩
    rw [steps] at path
    rw [caches_iff tidy start.mem_owned] at kept
    have rooted := (exists_startsFrom_iff tidy).mp ⟨r, start, rfl⟩
    exact ⟨r.identity, rooted, kept, (walk r).mpr ⟨t, path, same⟩⟩
  · rintro ⟨_, rooted, kept, path⟩
    obtain ⟨r, start, rfl⟩ := (exists_startsFrom_iff tidy).mpr rooted
    obtain ⟨t, path, same⟩ := (walk r).mp path
    rw [← caches_iff tidy start.mem_owned] at kept
    rw [← steps] at path
    exact ⟨t, ⟨r, start, kept, path⟩, same⟩

variable {probe : Probe} {o : Outcome}

/-- A run succeeds when a focus on the wired workspace, a substitution and a schedule do in turn. -/
theorem run_eq_ok : ((s.pipeline probe).run w).result = .ok o ↔ ∃ w' l',
    s.selection.focus w.wired {} = .ok (w', l') ∧
      w'.substitute s.artifacts l' = .ok (o.workspace, o.ledger) ∧
      (o.workspace.schedule o.ledger probe).result = .ok o.sideEffects := by
  constructor
  · -- The four passes succeed one after another, and each hands on to the next.
    intro ran
    obtain ⟨_, _, wired, second, rfl⟩ := Pipeline.runAll_cons_eq_ok.mp ran
    obtain ⟨_, _, began, third, rfl⟩ := Pipeline.runAll_cons_eq_ok.mp second
    obtain ⟨_, _, cached, fourth, rfl⟩ := Pipeline.runAll_cons_eq_ok.mp third
    obtain ⟨_, _, asked, finished, rfl⟩ := Pipeline.runAll_cons_eq_ok.mp fourth
    cases wired
    obtain ⟨w', l', done, rfl⟩ := StandardPass.run_focus_eq_ok.mp began
    obtain ⟨w'', l'', substituted, rfl⟩ := StandardPass.run_caching_eq_ok.mp cached
    obtain ⟨effects, scheduled, rfl⟩ := StandardPass.run_scheduling_eq_ok.mp asked
    cases finished
    exact ⟨w', l', done, substituted, by simpa using scheduled⟩
  · rintro ⟨w', l', done, substituted, scheduled⟩
    have second := Pipeline.runAll_focus done
      (Pipeline.runAll_caching substituted (Pipeline.runAll_scheduling scheduled))
    exact Pipeline.runAll_cons_eq_ok.mpr ⟨_, _, StandardPass.run_wiring, second, rfl⟩

/-- A run that succeeds is made of a focus, a substitution and a schedule that do. -/
theorem parts_of_run (ran : ((s.pipeline probe).run w).result = .ok o) :
    ∃ w' : Workspace, w'.Focused w (s.sources w) ∧
      w'.substitute s.artifacts (s.focusLedger w) = .ok (o.workspace, o.ledger) ∧
      (o.workspace.schedule o.ledger probe).result = .ok o.sideEffects := by
  obtain ⟨w', l', done, substituted, scheduled⟩ := run_eq_ok.mp ran
  -- The focus is one on the workspace that is given, since wiring keeps what it looks at.
  have focused := (Selection.focused_of_focus done).of_outline w.outline_wired w.targetEdges_wired
    (s.selection.sources_id_of_outline w.outline_wired)
  obtain ⟨_, _, _, _, rfl⟩ := Selection.focus_eq_ok.mp done
  exact ⟨w', focused, substituted, scheduled⟩

/-- In the end of a run, a target is live when it remains. -/
theorem live_iff_remains (tidy : w.Tidy) (ran : ((s.pipeline probe).run w).result = .ok o)
    {id : TargetId} : o.workspace.Live id ↔
      w.Remains (s.sources w) s.artifacts (s.focusLedger w) id.identity := by
  -- Scheduling hands on what the substitution makes.
  obtain ⟨w', focused, substituted, _⟩ := parts_of_run ran
  exact focused.live_substitute tidy (sources_owned tidy) substituted

/-- A run keeps the outline of the workspace. -/
theorem outline_of_run (ran : ((s.pipeline probe).run w).result = .ok o) :
    o.workspace.outline = w.outline := by
  -- Only the focus and the substitution could change it, and neither does.
  obtain ⟨w', focused, substituted, _⟩ := parts_of_run ran
  exact (Workspace.narrows_of_substitute substituted).outline.trans focused.outline

/-- A target is built when its identity remains. -/
theorem builds_iff (tidy : w.Tidy) (member : t ∈ w.owned) : s.Builds w t ↔
    w.Remains (s.sources w) s.artifacts (s.focusLedger w) t.identity := by
  -- In a tidy workspace, a target is told by its identity.
  rw [← exists_builds_iff tidy, tidy.exists_identity_iff (fun _ => Builds.mem_owned) member]

open Classical in
/-- In the end of a run, the live targets have the outlines of those that are built, in order. -/
theorem outline_liveTargets (tidy : w.Tidy) (ran : ((s.pipeline probe).run w).result = .ok o) :
    o.workspace.liveTargets.toList.map OwnedTarget.outline =
      (w.allTargets.toList.filter fun t => s.Builds w t).map OwnedTarget.outline := by
  have outline := outline_of_run ran
  have all : o.workspace.allTargets.toList.map OwnedTarget.outline =
      w.allTargets.toList.map OwnedTarget.outline := by
    rw [← Workspace.allTargets_outline, outline, Workspace.allTargets_outline]
  -- On both sides, targets are kept when their identities remain, which outlines tell.
  have after : o.workspace.liveTargets.toList =
      o.workspace.allTargets.toList.filter ((fun t => decide (w.Remains (s.sources w) s.artifacts
        (s.focusLedger w) t.identity)) ∘ OwnedTarget.outline) := by
    refine List.filter_congr fun t member => ?_
    have owned := (tidy.of_outline outline).mem_allTargets.mp member
    have live : o.workspace.Live t.id ↔ w.Remains (s.sources w) s.artifacts (s.focusLedger w)
        t.id.identity := live_iff_remains tidy ran
    rw [Workspace.live_iff_of_found ((tidy.of_outline outline).found owned)] at live
    show (!t.target.pruned) = decide (w.Remains (s.sources w) s.artifacts (s.focusLedger w)
      t.id.identity)
    rw [Bool.eq_iff_iff, Bool.not_eq_true', decide_eq_true_iff, live]
  have before : (w.allTargets.toList.filter fun t => s.Builds w t) =
      w.allTargets.toList.filter ((fun t => decide (w.Remains (s.sources w) s.artifacts
        (s.focusLedger w) t.identity)) ∘ OwnedTarget.outline) := by
    refine List.filter_congr fun t member => ?_
    have owned := tidy.mem_allTargets.mp member
    exact decide_eq_decide.mpr (builds_iff tidy owned)
  rw [after, before, ← List.filter_map, ← List.filter_map, all]

/-- In the end of a run, no live target is noted to be replaced. -/
theorem not_isReplaced_of_live (tidy : w.Tidy) (ran : ((s.pipeline probe).run w).result = .ok o)
    {id : TargetId} (live : o.workspace.Live id) : o.ledger.isReplaced id = false := by
  -- Nothing was noted when the run began.
  obtain ⟨w', focused, substituted, _⟩ := parts_of_run ran
  rw [focused.isReplaced_of_live tidy (sources_owned tidy) substituted live]
  rfl

/-- In the end of a run, the active builds are those of the live targets. -/
theorem activeBuilds_of_run (tidy : w.Tidy) (ran : ((s.pipeline probe).run w).result = .ok o) :
    o.workspace.activeBuilds o.ledger = o.workspace.liveTargets.toList.filterMap fun t =>
      t.target.foreignBuild.map (t.path, ·) := by
  have tidy' := tidy.of_outline (outline_of_run ran)
  rw [Workspace.activeBuilds_eq, Workspace.liveTargets, SortedSet.filter, List.filterMap_filter]
  refine List.filterMap_congr fun t member => ?_
  -- A target that is not pruned is not replaced either.
  rw [Workspace.activeBuild?]
  by_cases pruned : t.target.pruned = true
  · simp [pruned]
  · have unpruned : t.target.pruned = false := Bool.eq_false_iff.mpr pruned
    have found := tidy'.found (tidy'.mem_allTargets.mp member)
    have kept := not_isReplaced_of_live tidy ran ((Workspace.live_iff_of_found found).mpr unpruned)
    have noted : o.ledger.replacementFor? t.id = none := by
      simpa [Ledger.isReplaced] using kept
    simp [unpruned, noted]

open Classical in
/-- In the end of a run, the active builds are those of the targets that are built, in order. -/
theorem activeBuilds_eq_builds (tidy : w.Tidy)
    (ran : ((s.pipeline probe).run w).result = .ok o) : o.workspace.activeBuilds o.ledger =
      (w.allTargets.toList.filter fun t => s.Builds w t).filterMap fun t =>
        t.target.foreignBuild.map (t.path, ·) := by
  -- The builds of targets are those of their outlines.
  have builds : ∀ list : List OwnedTarget,
      (list.filterMap fun t => t.target.foreignBuild.map (t.path, ·)) =
        (list.map OwnedTarget.outline).filterMap fun t =>
          t.target.foreignBuild.map (t.path, ·) := by
    intro list
    rw [List.filterMap_map]
    rfl
  rw [activeBuilds_of_run tidy ran, builds, outline_liveTargets tidy ran, ← builds]

open Classical in
/-- On a workspace whose keys are consistent, whatever is pruned there, a run that succeeds leaves
live exactly the targets that are built, and asks for their foreign builds whose artefacts are
missing, in the order of the targets. -/
theorem builds_of_run (consistent : w.KeyConsistent)
    (ran : ((s.pipeline probe).run w).result = .ok o) :
    (∀ id, (∃ t ∈ o.workspace.owned, t.id = id ∧ t.target.pruned = false) ↔
      ∃ t, s.Builds w t ∧ t.id = id) ∧
    o.sideEffects = (((w.allTargets.toList.filter fun t => s.Builds w t).filterMap fun t =>
      t.target.foreignBuild.map (t.path, ·)).filter probe.misses).map fun b =>
        buildCommand b.1 b.2.script := by
  have tidy := consistent.tidy
  have outline := outline_of_run ran
  have tidy' := tidy.of_outline outline
  refine ⟨fun id => ⟨?_, ?_⟩, ?_⟩
  · -- A live target has a counterpart in the workspace that was given, which remains.
    rintro ⟨t, member, rfl, unpruned⟩
    have found := tidy'.found member
    have live := (Workspace.live_iff_of_found found).mpr unpruned
    obtain ⟨u, there, same⟩ := Workspace.exists_ownedTarget?_of_outline outline found
    have ids := OwnedTarget.id_of_outline same
    have remains := (live_iff_remains tidy ran).mp live
    rw [ids] at remains
    have owned := Workspace.mem_owned_of_ownedTarget? there
    exact ⟨u, (builds_iff tidy owned).mpr remains, ids.symm⟩
  · -- A target that is built is live under its identity, and is found there itself.
    rintro ⟨u, built, rfl⟩
    have live := (live_iff_remains tidy ran).mpr ((builds_iff tidy built.mem_owned).mp built)
    obtain ⟨t, found, unpruned⟩ := Workspace.live_iff.mp live
    obtain ⟨v, there, same⟩ := Workspace.exists_ownedTarget?_of_outline outline found
    have also : v = u := by simpa [tidy.found built.mem_owned] using there.symm
    rw [also] at same
    exact ⟨t, Workspace.mem_owned_of_ownedTarget? found, OwnedTarget.id_of_outline same, unpruned⟩
  · -- What is asked for are the active builds whose artefacts are missing.
    obtain ⟨_, _, _, scheduled⟩ := parts_of_run ran
    rw [(Workspace.schedule_eq_ok.mp scheduled).2, activeBuilds_eq_builds tidy ran]

/-- In the small workspace, the foreign build is built, and the library is not, since it is
cached. -/
theorem builds_of_sample : Sample.workspace.KeyConsistent ∧
    ((Sample.settings.pipeline Sample.nothingThere).run Sample.workspace).result =
      .ok Sample.outcome ∧
    (∃ t, Sample.settings.Builds Sample.workspace t ∧ t.id = ⟨Sample.project.path, "Kit"⟩) ∧
    ¬ ∃ t, Sample.settings.Builds Sample.workspace t ∧ t.id = ⟨Sample.project.path, "Core"⟩ := by
  -- The library and the foreign build are looked up in what the run comes to.
  have consistent : Sample.workspace.KeyConsistent := ⟨by decide, by decide⟩
  have live := (builds_of_run consistent Sample.run_workspace).1
  refine ⟨consistent, Sample.run_workspace, (live _).mp ?_, mt (live _).mpr ?_⟩
  · decide
  · decide

end Settings

end BuildGraph
