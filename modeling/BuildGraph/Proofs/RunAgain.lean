import BuildGraph.Proofs.EndToEnd
import BuildGraph.Proofs.Rewiring

/-! What a run with an explicit selection has left stays as it is in another run with the same
settings, which asks for the same commands. -/

namespace BuildGraph

open Relation

namespace Workspace

variable {w w' w₁ w₂ w₃ : Workspace} {l l₁ l₃ : Ledger} {sources sources' : List OwnedTarget}
  {table : ArtifactTable} {k : Identity}

/-- Sources of the same identities, in whatever workspaces, are found under the same ones. -/
theorem exists_source_congr (ids : sources'.map OwnedTarget.id = sources.map OwnedTarget.id) :
    (∃ t ∈ sources', t.identity = k) ↔ ∃ t ∈ sources, t.identity = k := by
  -- A source counts by its identity only, and the identities are the same lists.
  have among : ∀ list : List OwnedTarget, (∃ t ∈ list, t.identity = k) ↔
      ∃ id ∈ list.map OwnedTarget.id, id.identity = k := by
    intro list
    simp [OwnedTarget.identity]
  rw [among, among, ids]

namespace Focused

section Again

variable (focused : w'.Focused w sources) (tidy : w.Tidy) (owned : ∀ t ∈ sources, t ∈ w.owned)
  (done : w'.substitute table l = .ok (w₁, l₁))
include focused tidy owned done

/-- After a substitution, what was cached is avoided. -/
theorem avoids_of_cached {id : TargetId} (cached : w.Cached sources table id.identity) :
    w₁.dependencies.Avoids id := by
  -- What is cached has been replaced.
  rw [dependencies_substitute done]
  exact avoids_replaceAll w' _ (.inr ((focused.mem_replacedIn_iff tidy owned).mpr cached))

variable (ids : sources'.map OwnedTarget.id = sources.map OwnedTarget.id)
include ids

/-- After a substitution, the same sources need nothing that they did not need before. -/
theorem needs_of_substitute (needed : w₁.Needs sources' k) : w.Needs sources k := by
  obtain ⟨s, given, path⟩ := (needs_congr rfl ids).mp needed
  refine ⟨s, given, ReflTransGen.mono (fun a b next => ?_) _ _ path⟩
  -- No edge has come in.
  rw [focused.leads_substitute tidy owned done] at next
  exact next.1

/-- After a substitution, nothing is cached that was not cached before. -/
theorem cached_of_substitute (cached : w₁.Cached sources' table k) : w.Cached sources table k :=
  -- It has an artefact as before, and needing it is no news either.
  ⟨focused.needs_of_substitute tidy owned done ids cached.1, cached.2⟩

/-- After a substitution, the same sources lead to no loop. -/
theorem acyclic_of_substitute (needed : w₁.Needs sources' k) : ¬ TransGen w₁.Leads k k := by
  -- Every edge that is left was there before, so that the loop would have been.
  intro loop
  refine focused.acyclic k (focused.needs_of_substitute tidy owned done ids needed) ?_
  refine TransGen.mono (fun a b next => ?_) _ _ loop
  rw [focused.leads_substitute tidy owned done] at next
  exact next.1

variable (requested : ∀ id, l.isRequested id = true ↔ ∃ t ∈ sources, t.identity = id.identity)
include requested

/-- After a substitution, the same sources leave the same as before if they are the roots. -/
theorem remains_again : w₁.Remains sources' table l k ↔ w.Remains sources table l k := by
  have leads := focused.leads_substitute tidy owned done
  have cached := fun k => focused.cached_of_substitute tidy owned done ids (k := k)
  -- On both sides, the roots are the sources.
  have requested' : ∀ id, l.isRequested id = true ↔
      ∃ t ∈ sources', t.identity = id.identity := fun id =>
    (requested id).trans (exists_source_congr ids).symm
  have rooted : ∀ {k}, w₁.Rooted sources' l k ↔ w.Rooted sources l k := by
    intro k
    rw [rooted_iff_of_requested requested', rooted_iff_of_requested requested,
      exists_source_congr ids]
  constructor
  · -- A root that is not cached now was not cached before, since it is a source both times; and no
    -- edge is left to anything that was.
    rintro ⟨root, start, kept, path⟩
    have uncached : ¬ w.Cached sources table root := fun before => kept ⟨start.1, before.2⟩
    refine ⟨root, rooted.mp start, uncached, ReflTransGen.mono (fun a b next => ?_) _ _ path⟩
    have step := next.1
    rwa [leads] at step
  · rintro ⟨root, start, kept, path⟩
    refine ⟨root, rooted.mpr start, mt (cached root) kept,
      ReflTransGen.mono (fun a b next => ⟨?_, mt (cached b) next.2⟩) _ _ path⟩
    rwa [leads]

variable (again : w₂.Focused w₁ sources') (owned' : ∀ t ∈ sources', t ∈ w₁.owned)
  (same : w₂.revived = w₁.revived) (kept : w₂.dependencies = w₁.dependencies)
  (once : w₂.substitute table l = .ok (w₃, l₃))
include again owned' same kept once

/-- After a substitution, another focus on the same sources and another substitution change
nothing. -/
theorem eq_of_substitute_again : w₃ = w₁ := by
  have tidy₁ : w₁.Tidy := focused.tidy_substitute tidy done
  -- The same targets are live, which is all that can change in projects.
  have projects : w₃.projects = w₁.projects := by
    refine projects_of_revived ((revived_substitute once).trans same) fun id => ?_
    rw [again.live_substitute tidy₁ owned' once, focused.live_substitute tidy owned done]
    exact focused.remains_again tidy owned done ids requested
  -- What is replaced again is avoided since it was replaced first.
  have dependencies : w₃.dependencies = w₁.dependencies := by
    rw [dependencies_substitute once, dependencies_replaceAll, kept]
    intro r given
    rw [kept]
    refine focused.avoids_of_cached tidy owned done ?_
    refine focused.cached_of_substitute tidy owned done ids ?_
    exact (again.mem_replacedIn_iff tidy₁ owned').mp (List.mem_map_of_mem given)
  cases w₃
  cases w₁
  simp only [mk.injEq]
  exact ⟨projects, dependencies⟩

end Again

end Focused

end Workspace

namespace Settings

variable {s : Settings} {w w' : Workspace} {probe : Probe} {o : Outcome}

/-- The focus leaves the same ledger on workspaces of one outline. -/
theorem focusLedger_of_outline (same : w'.outline = w.outline) :
    s.focusLedger w' = s.focusLedger w := by
  -- The requests are the identities of the sources, which the outline tells.
  have wired : w'.wired.outline = w.wired.outline :=
    w'.outline_wired.trans (same.trans w.outline_wired.symm)
  rw [focusLedger, focusLedger, Selection.requested, Selection.requested,
    s.selection.sources_id_of_outline wired]

/-- What a run has left is wired. -/
theorem wired_of_run (ran : ((s.pipeline probe).run w).result = .ok o) : o.workspace.Wired := by
  -- Wiring comes first, and the passes behind it keep what it makes.
  obtain ⟨w', l', done, substituted, _⟩ := run_eq_ok.mp ran
  exact (w.wired_wired.focus done).substitute substituted

/-- Where a run with an explicit selection succeeds on a workspace whose keys are consistent, the
same run succeeds on the workspace that it leaves, leaves that as it is, and asks for the same
commands. -/
theorem run_again (consistent : w.KeyConsistent)
    (explicit : s.included.toList ≠ [] ∨ s.testPlan ≠ none)
    (ran : ((s.pipeline probe).run w).result = .ok o) :
    ∃ o', ((s.pipeline probe).run o.workspace).result = .ok o' ∧
      o'.workspace = o.workspace ∧ o'.sideEffects = o.sideEffects := by
  have tidy := consistent.tidy
  have outline := outline_of_run ran
  have wired : o.workspace.wired = o.workspace := (wired_of_run ran).wired_eq_self
  have tidy' : o.workspace.Tidy := tidy.of_outline outline
  have ids : (s.sources o.workspace).map OwnedTarget.id = (s.sources w).map OwnedTarget.id :=
    s.selection.sources_id_of_outline outline
  have requested : ∀ id, (s.focusLedger w).isRequested id = true ↔
      ∃ t ∈ s.sources w, t.identity = id.identity := by
    intro id
    rw [isRequested_focusLedger, and_iff_right (isExplicit_iff.mpr explicit)]
  obtain ⟨w', focused, substituted, scheduled⟩ := parts_of_run ran
  -- The selection is granted again, and leads to no loop.
  have granted : s.selection.refusal? o.workspace = none := by
    obtain ⟨_, _, began, _⟩ := run_eq_ok.mp ran
    rw [s.selection.refusal?_of_outline (outline.trans w.outline_wired.symm)]
    exact (Selection.focus_eq_ok.mp began).1
  obtain ⟨needed, closed⟩ := Workspace.exists_closure fun k =>
    focused.acyclic_of_substitute tidy (sources_owned tidy) substituted ids
  have focusedAgain : s.selection.focus o.workspace.wired {} =
      .ok (Selection.focusOn o.workspace needed, s.focusLedger w) := by
    rw [← focusLedger_of_outline outline, focusLedger, wired]
    exact Selection.focus_eq_ok.mpr ⟨granted, needed, closed, rfl, rfl⟩
  have again := focusedAgain
  rw [wired] at again
  have refocused := Selection.focused_of_focus again
  -- The substitution comes to what was there, since the first one has left nothing to do.
  obtain ⟨w'', l'', once⟩ := refocused.loopFree.exists_substitute s.artifacts (s.focusLedger w)
  have same : w'' = o.workspace :=
    focused.eq_of_substitute_again tidy (sources_owned tidy) substituted ids requested refocused
      (sources_owned tidy') (s.selection.revived_focus again)
      (s.selection.dependencies_focus again) once
  subst same
  -- Both ledgers have noted nothing of live targets.
  have builds : o.workspace.activeBuilds l'' = o.workspace.activeBuilds o.ledger := by
    refine Workspace.activeBuilds_congr rfl fun t member unpruned => ?_
    have live := (Workspace.live_iff_of_found (tidy'.found member)).mpr unpruned
    rw [refocused.isReplaced_of_live tidy' (sources_owned tidy') once live,
      focused.isReplaced_of_live tidy (sources_owned tidy) substituted live]
  rw [Workspace.schedule, ← builds] at scheduled
  exact ⟨⟨o.workspace, o.sideEffects, l''⟩,
    run_eq_ok.mpr ⟨_, _, focusedAgain, once, scheduled⟩, rfl, rfl⟩

end Settings

namespace Sample

/-- Settings that ask for the application and for the library by name. -/
def named : Settings where
  -- Including both makes the selection explicit, so the library is requested too.
  included := .ofList ["App", "Core"]
  artifacts := artifacts

/-- What the run of these settings makes of the small workspace. -/
def namedOutcome : Outcome :=
  -- Only the requests differ from those of the other run.
  { outcome with ledger :=
      (focused.replaceable artifacts).foldl Ledger.recordReplacement (named.focusLedger workspace) }

/-- The run that asks for the application and the library succeeds. -/
theorem run_named : ((named.pipeline nothingThere).run workspace).result = .ok namedOutcome := by
  -- The library is replaced although it is asked for, and so the searches are the same as when
  -- nothing is asked for by name.
  have focus : named.selection.focus workspace.wired {} =
      .ok (focused, named.focusLedger workspace) := by
    have ended : workspace.wired.followed (named.selection.sources workspace.wired) 20 =
        some (.ok (targets workspace.wired ["Core", "Kit", "App"])) := rfl
    exact Selection.focus_of_followed rfl ended
  have caching : focused.substitute artifacts (named.focusLedger workspace) =
      .ok (namedOutcome.workspace, namedOutcome.ledger) := by
    have ended : replaced.followed (replaced.liveSources (focused.liveRoots
        (named.focusLedger workspace))) 20 = some (.ok (targets replaced ["Kit", "App"])) := rfl
    exact Workspace.substitute_of_followed rfl ended
  exact Settings.run_eq_ok.mpr ⟨_, _, focus, caching, rfl⟩

end Sample

/-- In the small workspace, the library is replaced, and is asked for again in vain. -/
theorem Settings.run_again_of_sample : Sample.workspace.KeyConsistent ∧
    Sample.named.included.toList ≠ [] ∧
    ((Sample.named.pipeline Sample.nothingThere).run Sample.workspace).result =
      .ok Sample.namedOutcome ∧
    ∃ o', ((Sample.named.pipeline Sample.nothingThere).run
        Sample.namedOutcome.workspace).result = .ok o' ∧
      o'.workspace = Sample.namedOutcome.workspace ∧
      o'.sideEffects = Sample.namedOutcome.sideEffects := by
  -- The settings include names, so that their selection is explicit.
  have consistent : Sample.workspace.KeyConsistent := ⟨by decide, by decide⟩
  have explicit : Sample.named.included.toList ≠ [] := by decide
  exact ⟨consistent, explicit, Sample.run_named,
    run_again consistent (.inl explicit) Sample.run_named⟩

end BuildGraph
