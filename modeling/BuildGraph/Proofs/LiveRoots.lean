import BuildGraph.Proofs.Survivors

/-! Where no loop is below a live target, the live roots lead to all live targets. So there is
nothing to prune where nothing is replaced, and caching may as well return at once. -/

namespace BuildGraph

open Relation

namespace Workspace

variable {w w' : Workspace} {l : Ledger}

/-- The workspace with artefacts of a table in the place of live targets, and without what only
these needed; what the roots do not lead to is looked for even where nothing is replaced. -/
def substituteInFull (w : Workspace) (table : ArtifactTable) (l : Ledger) :
    Except PassError (Workspace × Ledger) := do
  -- Substitution without its shortcut, so that the two can be compared.
  let pruned ← ((w.replaceable table).foldl replace w).pruneUnreachable (w.liveRoots l)
  return (pruned, (w.replaceable table).foldl Ledger.recordReplacement l)

/-- Pruning leaves a workspace as it is where all live targets stay live. -/
theorem eq_of_pruneUnreachable {roots : SortedSet TargetId}
    (done : w.pruneUnreachable roots = .ok w') (kept : ∀ id, w.Live id → w'.Live id) : w' = w := by
  -- Nothing but marks can change, and these are the same if the same targets are live.
  have projects : w'.projects = w.projects :=
    projects_of_revived (revived_pruneUnreachable done) fun id =>
      ⟨(reduced_of_pruneUnreachable done).narrows.live id, kept id⟩
  obtain ⟨needed, _, rfl⟩ := pruneUnreachable_eq_ok.mp done
  exact congrArg (fun projects => ({ w with projects } : Workspace)) projects

namespace Tidy

/-- No loop is below a live target of a tidy workspace exactly when none is below what is not
pruned. -/
theorem loopFree_iff (tidy : w.Tidy) : w.LoopFree ↔
    ∀ t ∈ w.owned, t.target.pruned = false →
      ∀ k, ReflTransGen w.PointsTo t.identity k → ¬ TransGen w.PointsTo k k := by
  -- The live targets of a tidy workspace are those that are not pruned.
  rw [LoopFree, leads_eq_pointsTo]
  constructor
  · intro free t member live
    exact free t.id t (tidy.found member) ((live_iff_of_found (tidy.found member)).mpr live)
  · intro free id t found live
    exact free t (mem_owned_of_ownedTarget? found) ((live_iff_of_found found).mp live)

/-- Where no loop is below a live target, a root leads to each of them. -/
theorem exists_root (tidy : w.Tidy) (free : w.LoopFree) (l : Ledger) {k : Identity}
    (lives : w.Lives k) : ∃ root, w.IsRoot l root ∧ ReflTransGen w.PointsTo root k := by
  -- Otherwise the target is below a loop, which runs through live targets.
  refine (tidy.exists_root_or_loop l lives).resolve_right ?_
  rintro ⟨a, loop, _⟩
  obtain ⟨_, ⟨alive, _⟩, _⟩ := TransGen.head'_iff.mp loop
  obtain ⟨t, member, rfl⟩ := tidy.exists_owned_of_lives alive
  exact tidy.loopFree_iff.mp free t member ((tidy.lives_iff member).mp alive) t.identity .refl
    (TransGen.mono (fun _ _ next => next.2.1) _ _ loop)

/-- Where pruning by the live roots succeeds, it changes nothing exactly when a root leads to each
live target. -/
theorem eq_self_iff (tidy : w.Tidy) (done : w.pruneUnreachable (w.liveRoots l) = .ok w') :
    w' = w ↔ ∀ k, w.Lives k → ∃ root, w.IsRoot l root ∧ ReflTransGen w.PointsTo root k := by
  -- It is the case of no replacements.
  have none : (([] : List Replacement).foldl replace w).pruneUnreachable (w.liveRoots l) = .ok w' :=
    done
  have left : ∀ k, w'.Lives k ↔
      w.Lives k ∧ ∃ root, w.IsRoot l root ∧ ReflTransGen w.PointsTo root k := fun k => by
    simpa [replacedIn] using tidy.lives_pruneUnreachable none
  constructor
  · rintro rfl k lives
    exact ((left k).mp lives).2
  · intro rooted
    refine eq_of_pruneUnreachable done fun id live => ?_
    have lives := lives_identity.mpr live
    exact lives_identity.mp ((left _).mpr ⟨lives, rooted _ lives⟩)

end Tidy

/-- Where no loop is below a live target of a tidy workspace, pruning by the live roots leaves it as
it is. -/
theorem LoopFree.pruneUnreachable_liveRoots (free : w.LoopFree) (tidy : w.Tidy) (l : Ledger) :
    w.pruneUnreachable (w.liveRoots l) = .ok w := by
  -- Pruning succeeds without a loop, and changes nothing since a root leads to all that lives.
  obtain ⟨w', done⟩ := free.exists_pruneUnreachable (w.liveRoots l)
  rw [done, (tidy.eq_self_iff done).mpr fun _ => tidy.exists_root free l]

/-- Caching may return early. On a workspace whose keys are consistent, where nothing that an
unpruned target leads to lies on a loop, and with whatever was requested: each unpruned target is
one that a live root leads to, and live roots are the unpruned targets that no unpruned one depends
on or that were requested; pruning by them before anything is replaced succeeds and changes nothing;
and so a substitution comes to the same as one that always prunes, be there artefacts or not. -/
theorem early_return_agrees (consistent : w.KeyConsistent)
    (acyclic : ∀ t ∈ w.owned, t.target.pruned = false →
      ∀ k, ReflTransGen w.PointsTo t.identity k → ¬ TransGen w.PointsTo k k) (l : Ledger) :
    (∀ t ∈ w.owned, t.target.pruned = false → ∃ root ∈ (w.liveRoots l).toList,
      w.IsRoot l root.identity ∧ ReflTransGen w.PointsTo root.identity t.identity) ∧
    w.pruneUnreachable (w.liveRoots l) = .ok w ∧
    ∀ table, w.substitute table l = w.substituteInFull table l := by
  have tidy := consistent.tidy
  have free : w.LoopFree := tidy.loopFree_iff.mpr acyclic
  have pruned := free.pruneUnreachable_liveRoots tidy l
  refine ⟨fun t member live => ?_, pruned, fun table => ?_⟩
  · obtain ⟨_, isRoot, path⟩ := tidy.exists_root free l ((tidy.lives_iff member).mpr live)
    obtain ⟨root, given, rfl⟩ := tidy.exists_liveRoot_iff.mpr isRoot
    exact ⟨root, given, isRoot, path⟩
  · rw [substitute, substituteInFull]
    cases w.replaceable table with
    | nil =>
      -- Nothing is replaced, and nothing is pruned.
      simp only [List.foldl_nil, pruned, ok_bind]
      rfl
    | cons r rest => rfl

end Workspace

namespace Sample

/-- The live targets of the workspace with a pruned library, from below. -/
def bypassedLive : List OwnedTarget :=
  -- The pruned one is among them, since the search passes through it.
  ["Core", "Net", "App", "Kit"].filterMap fun name => bypassed.ownedTarget? (tangledId name)

/-- The search from all live targets ends. -/
theorem closure_bypassed : bypassed.closure bypassed.liveTargets = .ok (.collect bypassedLive) := by
  -- The search is followed for as many steps as it takes.
  have ended : bypassed.followed bypassed.liveTargets 30 = some (.ok bypassedLive) := rfl
  exact Workspace.closure_of_followed ended

end Sample

/-- One library is pruned, and another is needed by it and by a live one. The live roots lead to
that, too, and there is nothing to prune. -/
theorem Workspace.early_return_agrees_of_sample : Sample.bypassed.KeyConsistent ∧
    (∀ t ∈ Sample.bypassed.owned, t.target.pruned = false →
      ∀ k, ReflTransGen Sample.bypassed.PointsTo t.identity k →
        ¬ TransGen Sample.bypassed.PointsTo k k) ∧
    Sample.bypassed.pruneUnreachable (Sample.bypassed.liveRoots {}) = .ok Sample.bypassed ∧
    (∃ t ∈ Sample.bypassed.owned, t.target.pruned = true) := by
  -- The search from the live targets has ended, so that no loop is below them.
  have tidy := Sample.bypassed_consistent.tidy
  have acyclic : ∀ t ∈ Sample.bypassed.owned, t.target.pruned = false →
      ∀ k, ReflTransGen Sample.bypassed.PointsTo t.identity k →
        ¬ TransGen Sample.bypassed.PointsTo k k := by
    intro t member live k path
    rw [← leads_eq_pointsTo] at path ⊢
    exact (closure_eq_ok Sample.closure_bypassed).2 k
      ⟨t, tidy.mem_liveTargets.mpr ⟨member, live⟩, path⟩
  exact ⟨Sample.bypassed_consistent, acyclic,
    (early_return_agrees Sample.bypassed_consistent acyclic {}).2.1, by decide⟩

end BuildGraph
