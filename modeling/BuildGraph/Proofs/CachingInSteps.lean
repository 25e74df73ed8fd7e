import BuildGraph.Proofs.Marks
import BuildGraph.Proofs.Remaining

/-! Two substitutions, one after the other, leave the same targets live as one with the artefacts of
both tables, and the same foreign builds are still to be run. -/

namespace BuildGraph

open Relation

/-- The artefacts of two tables; where both have one for a name, that of the first is taken. -/
def ArtifactTable.over (first second : ArtifactTable) : ArtifactTable :=
  -- The second table is filled first, so that the first can overwrite it.
  first.entries.foldl (fun table e => table.insert e.1 e.2) second

/-- What is held once the entries of a list with distinct names are inserted: what the list has, and
otherwise what was held before. -/
theorem SortedMap.get?_foldl_insert {ν : Type} {entries : List (String × ν)}
    (ordered : entries.Pairwise fun a b => compare a.1 b.1 = .lt) (m : SortedMap String ν)
    (k : String) : (entries.foldl (fun m e => m.insert e.1 e.2) m).get? k =
      ((entries.find? fun e => compare k e.1 == .eq).map Prod.snd).or (m.get? k) := by
  -- The first entry is found in the list unless it is not the one that is asked for.
  induction entries generalizing m with
  | nil => rfl
  | cons first rest ih =>
    obtain ⟨below, tail⟩ := List.pairwise_cons.mp ordered
    rw [List.foldl_cons, ih tail, insert, get?_alter, List.find?_cons]
    cases here : compare k first.1 == .eq with
    | true =>
      have here : compare k first.1 = .eq := by simpa using here
      have absent : rest.find? (fun e => compare k e.1 == .eq) = none := by
        refine List.find?_eq_none.mpr fun e member => ?_
        rw [Std.TransCmp.congr_left here]
        simp [below e member]
      simp [here, absent]
    | false =>
      have other : compare k first.1 ≠ .eq := by simpa using here
      simp [other]

/-- A name has an artefact in two tables if it has one in the first, or else in the second. -/
theorem ArtifactTable.get?_over (first second : ArtifactTable) (name : String) :
    (first.over second).get? name = (first.get? name).or (second.get? name) :=
  -- The entries of the first table are put over those of the second.
  SortedMap.get?_foldl_insert first.ordered second name

namespace Workspace

variable {w w' w₁ w₂ w₃ : Workspace} {l l' l₁ l₂ l₃ : Ledger} {sources : List OwnedTarget}
  {first second : ArtifactTable} {k : Identity}

/-- Whether a target is live depends on its identity only. -/
theorem live_congr {a b : TargetId} (same : a.identity = b.identity) : w.Live a ↔ w.Live b := by
  -- A target is found under every spelling of its identity.
  rw [live_iff, live_iff, ownedTarget?_congr same]

/-- A substitution leaves the requests alone. -/
theorem isRequested_substitute {table : ArtifactTable}
    (done : w.substitute table l = .ok (w', l')) (id : TargetId) :
    l'.isRequested id = l.isRequested id := by
  -- Only replacements are recorded.
  rw [ledger_substitute done, Ledger.isRequested, requested_recordAll, Ledger.isRequested]

/-- In a sustained tidy workspace, what a live target leads to is live. -/
theorem Sustained.live_of_leads (sustained : w.Sustained) (tidy : w.Tidy) {id : TargetId}
    (live : w.Live id) (path : ReflTransGen w.Leads id.identity k) :
    ∃ other, w.Live other ∧ other.identity = k := by
  -- Each step of the walk goes along an edge of a live target.
  induction path with
  | refl => exact ⟨id, live, rfl⟩
  | tail _ next ih =>
    obtain ⟨other, live, rfl⟩ := ih
    obtain ⟨edge, member, d, found, rfl⟩ := leads_iff.mp next
    obtain ⟨t, there, _⟩ := live_iff.mp live
    rw [← targetEdges_congr (show t.id.identity = other.identity from tidy other t there)] at member
    exact ⟨edge, sustained other t there live edge member d found, (tidy edge d found).symm⟩

/-- A sustained tidy workspace without loops below its live targets is focused on these. -/
theorem Sustained.focused (sustained : w.Sustained) (tidy : w.Tidy) (free : w.LoopFree) :
    w.Focused w w.liveTargets.toList where
  outline := rfl
  edges _ := rfl
  live id := by
    constructor
    · intro live
      obtain ⟨t, found, unpruned⟩ := live_iff.mp live
      have owned := mem_owned_of_ownedTarget? found
      exact ⟨t, found, t, tidy.mem_liveTargets.mpr ⟨owned, unpruned⟩, .refl⟩
    · rintro ⟨t, found, s, given, path⟩
      -- A needed target has the identity of a live one.
      obtain ⟨owned, unpruned⟩ := tidy.mem_liveTargets.mp given
      have alive := (live_iff_of_found (tidy.found owned)).mpr unpruned
      obtain ⟨other, live, same⟩ := sustained.live_of_leads tidy alive path
      exact (live_congr (same.trans (tidy id t found))).mp live
  acyclic := by
    rintro k ⟨s, given, path⟩
    obtain ⟨owned, unpruned⟩ := tidy.mem_liveTargets.mp given
    have found := tidy.found owned
    exact free s.id s found ((live_iff_of_found found).mpr unpruned) k path

/-- A name is cached in two tables when it is in the one or in the other. -/
theorem cached_over : w.Cached sources (first.over second) k ↔
    w.Cached sources first k ∨ w.Cached sources second k := by
  -- One of the tables has the name, or the other does.
  rw [Cached, Cached, Cached, ArtifactTable.get?_over, Option.isSome_or, Bool.or_eq_true,
    and_or_left]

namespace Focused

section Steps

variable (focused : w'.Focused w sources) (tidy : w.Tidy) (owned : ∀ t ∈ sources, t ∈ w.owned)
  (done : w'.substitute first l = .ok (w₁, l₁))
include focused tidy owned done

omit owned in
/-- What a first substitution leaves is focused on the targets that it leaves live. -/
theorem focused_substitute : w₁.Focused w₁ w₁.liveTargets.toList := by
  -- It is sustained and free of loops, and so it is focused on all that it has.
  have narrow := narrows_of_substitute done
  have tidy₁ : w₁.Tidy := focused.tidy_substitute tidy done
  exact (focused.sustained.substitute done).focused tidy₁ (focused.loopFree.narrow narrow)

/-- After a first substitution, the live targets need what remains. -/
theorem needs_substitute :
    w₁.Needs w₁.liveTargets.toList k ↔ w.Remains sources first l k := by
  have tidy₁ : w₁.Tidy := focused.tidy_substitute tidy done
  have among : ∀ t ∈ w₁.liveTargets.toList, t ∈ w₁.owned := tidy₁.liveTargets_owned
  rw [← (focused.focused_substitute tidy done).exists_liveTarget_iff tidy₁ among,
    tidy₁.exists_liveTarget_iff]
  constructor
  · rintro ⟨id, live, rfl⟩
    exact (focused.live_substitute tidy owned done).mp live
  · intro remains
    -- What remains is needed, and so belongs to a target of the workspace.
    obtain ⟨t, _, rfl⟩ := List.mem_map.mp (Needs.mem_owned owned remains.needed_and_kept.1)
    exact ⟨t.id, (focused.live_substitute tidy owned done).mpr remains, rfl⟩

/-- The roots after a first substitution are the roots from before that are not cached. -/
theorem rooted_substitute : w₁.Rooted w₁.liveTargets.toList l₁ k ↔
    w.Rooted sources l k ∧ ¬ w.Cached sources first k := by
  have requested : (∃ id : TargetId, id.identity = k ∧ l₁.isRequested id = true) ↔
      ∃ id : TargetId, id.identity = k ∧ l.isRequested id = true := by
    simp only [isRequested_substitute done]
  have leads := focused.leads_substitute tidy owned done
  simp only [Rooted, focused.needs_substitute tidy owned done, requested, leads]
  constructor
  · rintro ⟨remains, highest | asked⟩
    · -- What remains and is below nothing that remains was a root already.
      obtain ⟨root, rooted, kept, path⟩ := remains
      rcases ReflTransGen.cases_tail path with rfl | ⟨before, path, next⟩
      · exact ⟨rooted, kept⟩
      · exact absurd next (highest before ⟨root, rooted, kept, path⟩)
    · exact ⟨⟨remains.needed_and_kept.1, .inr asked⟩, remains.needed_and_kept.2⟩
  · rintro ⟨⟨needed, top⟩, kept⟩
    refine ⟨⟨k, ⟨needed, top⟩, kept, .refl⟩, top.imp_left fun highest a remains next => ?_⟩
    exact highest a remains.needed_and_kept.1 next.1

/-- What is cached after a first substitution is what remains of what the second table has. -/
theorem cached_substitute : w₁.Cached w₁.liveTargets.toList second k ↔
    w.Remains sources first l k ∧ (second.get? k.2).isSome = true := by
  -- What the live targets need is what remains.
  rw [Cached, focused.needs_substitute tidy owned done]

/-- Of what remains after a first substitution, the second table has what both tables have. -/
theorem cached_iff_of_remains (remains : w.Remains sources first l k) :
    w₁.Cached w₁.liveTargets.toList second k ↔ w.Cached sources (first.over second) k := by
  -- What remains has no artefact in the first table.
  obtain ⟨needed, uncached⟩ := remains.needed_and_kept
  rw [focused.cached_substitute tidy owned done, cached_over, or_iff_right uncached, Cached,
    and_iff_right remains, and_iff_right needed]

/-- What remains in two steps is what remains at once. -/
theorem remains_substitute : w₁.Remains w₁.liveTargets.toList second l₁ k ↔
    w.Remains sources (first.over second) l k := by
  have leads := focused.leads_substitute tidy owned done
  have cached : ∀ {k : Identity}, w.Remains sources first l k →
      (w₁.Cached w₁.liveTargets.toList second k ↔ w.Cached sources (first.over second) k) :=
    focused.cached_iff_of_remains tidy owned done
  constructor
  · -- The walk of the second step keeps to what remains after the first, where both tables count.
    rintro ⟨root, rooted, kept, path⟩
    obtain ⟨rooted, uncached⟩ := (focused.rooted_substitute tidy owned done).mp rooted
    have start : w.Remains sources first l root := ⟨root, rooted, uncached, .refl⟩
    have walk : w.Remains sources first l k ∧ ReflTransGen
        (fun a b => w.Leads a b ∧ ¬ w.Cached sources (first.over second) b) root k := by
      induction path with
      | refl => exact ⟨start, .refl⟩
      | tail _ next ih =>
        rw [leads] at next
        have remains := ih.1.tail next.1.1 next.1.2
        exact ⟨remains, ih.2.tail ⟨next.1.1, mt (cached remains).mpr next.2⟩⟩
    exact ⟨root, rooted, mt (cached start).mpr kept, walk.2⟩
  · -- What is cached in the second step is cached at once.
    rintro ⟨root, rooted, kept, path⟩
    have spared : ∀ {a : Identity}, ¬ w.Cached sources (first.over second) a →
        ¬ w.Cached sources first a ∧ ¬ w₁.Cached w₁.liveTargets.toList second a := by
      intro a kept
      refine ⟨fun one => kept (cached_over.mpr (.inl one)), fun other => ?_⟩
      have remains := ((focused.cached_substitute tidy owned done).mp other).1
      exact kept ((cached remains).mp other)
    refine ⟨root, (focused.rooted_substitute tidy owned done).mpr ⟨rooted, (spared kept).1⟩,
      (spared kept).2, ReflTransGen.mono (fun a b next => ?_) _ _ path⟩
    rw [leads]
    exact ⟨⟨next.1, (spared next.2).1⟩, (spared next.2).2⟩

variable (again : w₁.substitute second l₁ = .ok (w₂, l₂))
  (once : w'.substitute (first.over second) l = .ok (w₃, l₃))
include again once

/-- The same targets are live after two steps as at once. -/
theorem live_substitute_again {id : TargetId} : w₂.Live id ↔ w₃.Live id := by
  -- What remains after two steps is what remains at once.
  have focused₁ := focused.focused_substitute tidy done
  have tidy₁ : w₁.Tidy := focused.tidy_substitute tidy done
  have among : ∀ t ∈ w₁.liveTargets.toList, t ∈ w₁.owned := tidy₁.liveTargets_owned
  rw [focused₁.live_substitute tidy₁ among again, focused.live_substitute tidy owned once]
  exact focused.remains_substitute tidy owned done

/-- The projects are the same after two steps as at once. -/
theorem projects_substitute_again : w₂.projects = w₃.projects := by
  -- All three substitutions change flags only, and the flags are told by what is live.
  refine projects_of_revived ?_ fun id => focused.live_substitute_again tidy owned done again once
  rw [revived_substitute again, revived_substitute done, revived_substitute once]

/-- The same foreign builds are active after two steps as at once. -/
theorem activeBuilds_substitute_again : w₂.activeBuilds l₂ = w₃.activeBuilds l₃ := by
  have focused₁ := focused.focused_substitute tidy done
  have tidy₁ : w₁.Tidy := focused.tidy_substitute tidy done
  have tidy₃ : w₃.Tidy := focused.tidy_substitute tidy once
  have among : ∀ t ∈ w₁.liveTargets.toList, t ∈ w₁.owned := tidy₁.liveTargets_owned
  refine activeBuilds_congr (focused.projects_substitute_again tidy owned done again once)
    fun t member unpruned => ?_
  -- What is live in the end is live in between, so that it is noted only if it was before.
  have live : w₃.Live t.id := (live_iff_of_found (tidy₃.found member)).mpr unpruned
  have last : w₂.Live t.id :=
    (focused.live_substitute_again tidy owned done again once).mpr live
  have between : w₁.Live t.id := (narrows_of_substitute again).live t.id last
  rw [focused₁.isReplaced_of_live tidy₁ among again last,
    focused.isReplaced_of_live tidy owned done between,
    focused.isReplaced_of_live tidy owned once live]

end Steps

end Focused

end Workspace

/-- Artefacts for the library, elsewhere than before, and for the foreign build. -/
def Sample.otherArtifacts : ArtifactTable :=
  -- One name is in the first table as well, and the other is not.
  .ofList [("Core", ⟨⟨"/other/Core"⟩, .library, .static⟩),
    ("Kit", ⟨⟨"/cache/Kit.a"⟩, .library, .static⟩)]

namespace Pipeline

variable {w : Workspace} {l : Ledger} {o : Outcome} {s : Selection}
  {first second : ArtifactTable}

/-- After a focus on a workspace whose keys are consistent, caching with one table and then with
another succeeds and prunes the same targets as caching with both at once; and a schedule that
comes next asks for the same commands, whenever the probe always answers. -/
theorem caching_in_steps (consistent : w.KeyConsistent)
    (began : ((StandardPass.focus s).run w l).result = .ok o) : ∃ inSteps atOnce,
      (runAll w l ([.focus s, .caching first, .caching second].map
        StandardPass.toPass)).result = .ok inSteps ∧
      (runAll w l ([.focus s, .caching (first.over second)].map
        StandardPass.toPass)).result = .ok atOnce ∧
      inSteps.workspace.prunedTargets = atOnce.workspace.prunedTargets ∧
      inSteps.workspace.projects = atOnce.workspace.projects ∧
      ∀ probe : Probe, (∀ path, ∃ present, probe path = .ok present) → ∃ inSteps' atOnce',
        (runAll w l ([.focus s, .caching first, .caching second, .scheduling probe].map
          StandardPass.toPass)).result = .ok inSteps' ∧
        (runAll w l ([.focus s, .caching (first.over second), .scheduling probe].map
          StandardPass.toPass)).result = .ok atOnce' ∧
        inSteps'.sideEffects = atOnce'.sideEffects := by
  have tidy := consistent.tidy
  obtain ⟨w', l', done, rfl⟩ := StandardPass.run_focus_eq_ok.mp began
  have focused := Selection.focused_of_focus done
  have owned : ∀ t ∈ (s.sources w).toList, t ∈ w.owned := fun t member =>
    tidy.mem_allTargets.mp (List.mem_filter.mp (s.toList_sources w ▸ member)).1
  -- None of the three substitutions meets a loop.
  obtain ⟨w₁, l₁, one⟩ := focused.loopFree.exists_substitute first l'
  have free := focused.loopFree.narrow (Workspace.narrows_of_substitute one)
  obtain ⟨w₂, l₂, again⟩ := free.exists_substitute second l₁
  obtain ⟨w₃, l₃, once⟩ := focused.loopFree.exists_substitute (first.over second) l'
  have inSteps : ∀ {rest : List Pass} {o : Outcome}, (runAll w₂ l₂ rest).result = .ok o →
      (runAll w l ((StandardPass.focus s).toPass :: (StandardPass.caching first).toPass ::
        (StandardPass.caching second).toPass :: rest)).result = .ok o := fun rested =>
    runAll_focus done (runAll_caching one (runAll_caching again rested))
  have atOnce : ∀ {rest : List Pass} {o : Outcome}, (runAll w₃ l₃ rest).result = .ok o →
      (runAll w l ((StandardPass.focus s).toPass ::
        (StandardPass.caching (first.over second)).toPass :: rest)).result = .ok o := fun rested =>
    runAll_focus done (runAll_caching once rested)
  have projects := focused.projects_substitute_again tidy owned one again once
  refine ⟨⟨w₂, [], l₂⟩, ⟨w₃, [], l₃⟩, inSteps rfl, atOnce rfl,
    by simp only [Workspace.prunedTargets, projects], projects, fun probe answers => ?_⟩
  -- Both schedules ask about the same builds.
  have builds := focused.activeBuilds_substitute_again tidy owned one again once
  obtain ⟨effects, asked⟩ := Workspace.exists_schedule (w := w₃) (l := l₃) answers
  have also : (w₂.schedule l₂ probe).result = .ok effects := by
    rw [Workspace.schedule, builds]
    exact asked
  exact ⟨⟨w₂, effects, l₂⟩, ⟨w₃, effects, l₃⟩, inSteps (runAll_scheduling also),
    atOnce (runAll_scheduling asked), rfl⟩

/-- In the small workspace, the library and the foreign build can be cached one after the other or
at once, and the same targets are pruned then. -/
theorem caching_in_steps_of_sample : Sample.workspace.wired.KeyConsistent ∧
    ((StandardPass.focus Sample.settings.selection).run Sample.workspace.wired {}).result =
      .ok ⟨Sample.focused, [], {}⟩ ∧
    ∃ inSteps atOnce,
      (runAll Sample.workspace.wired {} ([.focus Sample.settings.selection,
        .caching Sample.artifacts, .caching Sample.otherArtifacts].map
          StandardPass.toPass)).result = .ok inSteps ∧
      (runAll Sample.workspace.wired {} ([.focus Sample.settings.selection,
        .caching (Sample.artifacts.over Sample.otherArtifacts)].map
          StandardPass.toPass)).result = .ok atOnce ∧
      inSteps.workspace.prunedTargets = atOnce.workspace.prunedTargets := by
  -- The focus on the small workspace succeeds, and that is all that is assumed.
  have consistent : Sample.workspace.wired.KeyConsistent := ⟨by decide, by decide⟩
  have began : ((StandardPass.focus Sample.settings.selection).run Sample.workspace.wired
      {}).result = .ok ⟨Sample.focused, [], {}⟩ :=
    StandardPass.run_focus_eq_ok.mpr ⟨_, _, Sample.focus_workspace, rfl⟩
  obtain ⟨inSteps, atOnce, one, other, pruned, _⟩ := caching_in_steps consistent began
  exact ⟨consistent, began, inSteps, atOnce, one, other, pruned⟩

end Pipeline

end BuildGraph
