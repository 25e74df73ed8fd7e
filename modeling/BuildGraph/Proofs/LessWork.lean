import BuildGraph.Proofs.EndToEnd

/-! A run that is asked for less, or is given more that is there already, leaves no more targets
live, and asks for no more work. -/

namespace BuildGraph

open Relation

namespace Workspace

variable {w : Workspace} {sources sources' : List OwnedTarget} {table table' : ArtifactTable}
  {l l' : Ledger} {k : Identity}

/-- What needs more, has more roots and fewer artefacts leaves whatever the other leaves. -/
theorem Remains.mono (rooted : ∀ a, w.Rooted sources l a → w.Rooted sources' l' a)
    (names : ∀ name, (table'.get? name).isSome = true → (table.get? name).isSome = true)
    (remains : w.Remains sources table l k) : w.Remains sources' table' l' k := by
  -- More may be cached in the wider run, but nothing of what the narrower one needs.
  have spared : ∀ a, w.Needs sources a → ¬ w.Cached sources table a →
      ¬ w.Cached sources' table' a := by
    intro a needed kept cached
    exact kept ⟨needed, names a.2 cached.2⟩
  obtain ⟨root, start, kept, path⟩ := remains
  -- The induction is on the walk from the root; all that it meets remains in the narrower run.
  have walk : w.Remains sources table l k ∧
      ReflTransGen (fun a b => w.Leads a b ∧ ¬ w.Cached sources' table' b) root k := by
    induction path with
    | refl => exact ⟨⟨root, start, kept, .refl⟩, .refl⟩
    | tail _ next ih =>
      have remains := ih.1.tail next.1 next.2
      exact ⟨remains, ih.2.tail ⟨next.1, spared _ remains.needed_and_kept.1 next.2⟩⟩
  exact ⟨root, rooted root start, spared root start.1 kept, walk.2⟩

end Workspace

namespace Probe

variable {probe probe' : Probe}

/-- Where the probes answer, what is missing for one is missing for another that finds no more. -/
theorem misses_mono (finds : ∀ path, probe' path = .ok true → probe path = .ok true)
    {build : Path × ForeignBuild} (answered : probe'.refusal? build = none)
    (missing : probe.misses build = true) : probe'.misses build = true := by
  rw [misses] at missing ⊢
  rw [refusal?] at answered
  cases answer : probe' (place build.1 build.2) with
  | error cause => simp [answer] at answered
  | ok present =>
    cases present with
    | false => rfl
    | true =>
      -- The other probe would have found the artefact too.
      rw [finds _ answer] at missing
      simp at missing

end Probe

namespace Settings

variable {s s' : Settings} {w : Workspace} {probe probe' : Probe} {o o' : Outcome}
  {t : OwnedTarget} {k : Identity}

/-- One run is asked for no more than another: it excludes the same names, makes the same selection
or includes fewer names, and has artefacts for at least the same names. -/
structure NoWider (s s' : Settings) : Prop where
  excluded : s.excluded = s'.excluded
  -- Where names are included, test plans have no say.
  selected : s.testPlan = s'.testPlan ∧ s.included = s'.included ∨
    s.included.toList ≠ [] ∧ s'.included.toList ≠ [] ∧
      ∀ name ∈ s.included.toList, name ∈ s'.included.toList
  artifacts : ∀ name, (s'.artifacts.get? name).isSome = true →
    (s.artifacts.get? name).isSome = true

namespace NoWider

/-- The sources of the narrower run are sources of the wider one. -/
theorem sources (narrow : s.NoWider s') (tidy : w.Tidy) (given : t ∈ s.sources w) :
    t ∈ s'.sources w := by
  -- A target that is selected by a name or a plan is selected by it in the wider run as well.
  rw [mem_sources_iff tidy] at given ⊢
  obtain ⟨owned, here, kept, chosen⟩ := given
  refine ⟨owned, here, narrow.excluded ▸ kept, ?_⟩
  rcases narrow.selected with ⟨plans, names⟩ | ⟨some, also, fewer⟩
  · rwa [← plans, ← names]
  · rw [if_neg some] at chosen
    rw [if_neg also]
    exact fewer t.name chosen

/-- The roots of the narrower run are roots of the wider one. -/
theorem rooted (narrow : s.NoWider s') (tidy : w.Tidy)
    (start : w.Rooted (s.sources w) (s.focusLedger w) k) :
    w.Rooted (s'.sources w) (s'.focusLedger w) k := by
  rcases narrow.selected with ⟨plans, names⟩ | ⟨some, also, _⟩
  · -- The same selection has the same sources and the same requests.
    have same : s.selection = s'.selection := by
      simp only [selection, plans, names, narrow.excluded]
    rwa [Settings.sources, focusLedger, ← same]
  · -- Both selections are explicit, and then the roots are the sources. Without that, a root would
    -- be what nothing needed leads to, of which less is left where more is needed.
    have requested : ∀ s : Settings, s.included.toList ≠ [] → ∀ id,
        (s.focusLedger w).isRequested id = true ↔
          ∃ t ∈ s.sources w, t.identity = id.identity := by
      intro s some id
      rw [isRequested_focusLedger, and_iff_right (isExplicit_iff.mpr (.inl some))]
    rw [Workspace.rooted_iff_of_requested (requested s some)] at start
    rw [Workspace.rooted_iff_of_requested (requested s' also)]
    obtain ⟨t, given, same⟩ := start
    exact ⟨t, narrow.sources tidy given, same⟩

/-- What remains in the narrower run remains in the wider one. -/
theorem remains (narrow : s.NoWider s') (tidy : w.Tidy)
    (remains : w.Remains (s.sources w) s.artifacts (s.focusLedger w) k) :
    w.Remains (s'.sources w) s'.artifacts (s'.focusLedger w) k :=
  -- Roots stay roots, and what has an artefact in the wider run has one in the narrower as well.
  remains.mono (fun _ => narrow.rooted tidy) narrow.artifacts

/-- What is built in the narrower run is built in the wider one. -/
theorem builds (narrow : s.NoWider s') (tidy : w.Tidy) (built : s.Builds w t) :
    s'.Builds w t := by
  -- In a tidy workspace, what is built is what remains, and that is carried over.
  have owned := built.mem_owned
  exact (builds_iff tidy owned).mpr (narrow.remains tidy ((builds_iff tidy owned).mp built))

/-- The active builds in the end of the narrower run are among those of the wider one, in the same
order. -/
theorem activeBuilds_sublist (narrow : s.NoWider s') (tidy : w.Tidy)
    (ran : ((s.pipeline probe).run w).result = .ok o)
    (other : ((s'.pipeline probe').run w).result = .ok o') :
    (o.workspace.activeBuilds o.ledger).Sublist (o'.workspace.activeBuilds o'.ledger) := by
  classical
  rw [activeBuilds_eq_builds tidy ran, activeBuilds_eq_builds tidy other]
  -- Both are taken from the targets of one workspace.
  refine List.Sublist.filterMap _ (List.monotone_filter_right _ fun t built => ?_)
  rw [decide_eq_true_iff] at built ⊢
  exact narrow.builds tidy built

/-- The missing artefacts of the narrower run are missed in the wider one as well. -/
theorem misses_sublist (narrow : s.NoWider s') (tidy : w.Tidy)
    (finds : ∀ path, probe' path = .ok true → probe path = .ok true)
    (ran : ((s.pipeline probe).run w).result = .ok o)
    (other : ((s'.pipeline probe').run w).result = .ok o') :
    ((o.workspace.activeBuilds o.ledger).filter probe.misses).Sublist
      ((o'.workspace.activeBuilds o'.ledger).filter probe'.misses) := by
  have fewer := narrow.activeBuilds_sublist tidy ran other
  -- The wider run has been told about all of its builds, since it succeeds.
  obtain ⟨_, _, _, scheduled⟩ := parts_of_run other
  have answered := List.findSome?_eq_none_iff.mp (Workspace.schedule_eq_ok.mp scheduled).1
  have missed : (o.workspace.activeBuilds o.ledger).filter probe.misses =
      ((o.workspace.activeBuilds o.ledger).filter probe'.misses).filter probe.misses := by
    rw [List.filter_filter]
    refine List.filter_congr fun build member => ?_
    cases missing : probe.misses build with
    | false => rfl
    | true => rw [Probe.misses_mono finds (answered build (fewer.subset member)) missing]; rfl
  rw [missed]
  exact List.filter_sublist.trans (fewer.filter _)

end NoWider

/-- Of two runs that succeed on a workspace whose keys are consistent, one that is asked for no more
than the other and finds at least the artefacts that the other finds leaves no target live that the
other does not, and asks for some of the commands of the other, in the same order. -/
theorem less_work (consistent : w.KeyConsistent) (narrow : s.NoWider s')
    (finds : ∀ path, probe' path = .ok true → probe path = .ok true)
    (ran : ((s.pipeline probe).run w).result = .ok o)
    (other : ((s'.pipeline probe').run w).result = .ok o') :
    (∀ id, o.workspace.Live id → o'.workspace.Live id) ∧ o.sideEffects.Sublist o'.sideEffects := by
  have tidy := consistent.tidy
  constructor
  · -- A target is live in the end when it remains.
    intro id live
    have remains := (live_iff_remains tidy ran).mp live
    exact (live_iff_remains tidy other).mpr (narrow.remains tidy remains)
  · -- The commands are those for the missing artefacts.
    obtain ⟨_, _, _, scheduled⟩ := parts_of_run ran
    obtain ⟨_, _, _, scheduledToo⟩ := parts_of_run other
    rw [(Workspace.schedule_eq_ok.mp scheduled).2, (Workspace.schedule_eq_ok.mp scheduledToo).2]
    exact (narrow.misses_sublist tidy finds ran other).map _

end Settings

namespace Sample

/-- Everything that is asked about is there. -/
def allThere : Probe :=
  -- With this probe nothing has to be built.
  fun _ => .ok true

/-- What a run without artefacts makes of the small workspace. -/
def focusedOutcome : Outcome where
  -- Without artefacts the ledger stays empty.
  workspace := focused
  sideEffects := [buildCommand project.path build.script]
  ledger := {}

/-- Where all artefacts are there, the run asks for nothing. -/
theorem run_allThere : ((settings.pipeline allThere).run workspace).result =
    .ok { outcome with sideEffects := [] } :=
  -- The first passes do not ask what is there.
  Settings.run_eq_ok.mpr ⟨_, _, focus_workspace, substitute_focused, rfl⟩

/-- Where nothing is there at all, the run replaces nothing. -/
theorem run_bare : ((({} : Settings).pipeline nothingThere).run workspace).result =
    .ok focusedOutcome := by
  -- An empty table replaces nothing and leaves what the focus makes.
  have kept : focused.substitute {} {} = .ok (focused, {}) :=
    Workspace.substitute_eq_ok.mpr (.inl ⟨rfl, rfl, rfl⟩)
  exact Settings.run_eq_ok.mpr ⟨_, _, focus_workspace, kept, rfl⟩

end Sample

/-- In the small workspace, the run that has an artefact for the library and finds that of the
foreign build asks for nothing, and the run that has neither asks for the foreign build. -/
theorem Settings.less_work_of_sample : Sample.workspace.KeyConsistent ∧
    Sample.settings.NoWider {} ∧
    (∀ path, Sample.nothingThere path = .ok true → Sample.allThere path = .ok true) ∧
    ((Sample.settings.pipeline Sample.allThere).run Sample.workspace).result =
      .ok { Sample.outcome with sideEffects := [] } ∧
    ((({} : Settings).pipeline Sample.nothingThere).run Sample.workspace).result =
      .ok Sample.focusedOutcome ∧
    (∀ id, Sample.outcome.workspace.Live id → Sample.focusedOutcome.workspace.Live id) ∧
    ([] : List SideEffect).Sublist Sample.focusedOutcome.sideEffects := by
  -- Both runs select everything, and only one of them has an artefact.
  have consistent : Sample.workspace.KeyConsistent := ⟨by decide, by decide⟩
  have narrow : Sample.settings.NoWider {} := ⟨rfl, .inl ⟨rfl, rfl⟩, fun _ found => by cases found⟩
  have finds : ∀ path, Sample.nothingThere path = .ok true → Sample.allThere path = .ok true :=
    fun _ _ => rfl
  exact ⟨consistent, narrow, finds, Sample.run_allThere, Sample.run_bare,
    less_work consistent narrow finds Sample.run_allThere Sample.run_bare⟩

end BuildGraph
