import BuildGraph.Proofs.Marks
import BuildGraph.Proofs.Sources
import BuildGraph.Proofs.Trace

/-! A focus prunes exactly what its selection does not lead to, and changes nothing else. -/

namespace BuildGraph

namespace Selection

/-- What a focus that succeeds makes of a workspace and a ledger. -/
structure Prunes (s : Selection) (w : Workspace) (l : Ledger) (o : Outcome) : Prop where
  -- A target that is excluded or external is kept when something leads to it.
  unpruned : ∀ t ∈ o.workspace.owned, t.target.pruned = false ↔ s.Reaches w t.identity
  projects : o.workspace.revived = w.revived
  dependencies : o.workspace.dependencies = w.dependencies
  sideEffects : o.sideEffects = []
  replacements : o.ledger.replacements = l.replacements
  -- Nothing is requested unless names are included or a test plan is chosen.
  requested : ∀ id, id ∈ o.ledger.requested.toList ↔
    (s.included.toList ≠ [] ∨ s.testPlan ≠ none) ∧ ∃ r, s.Picks w r ∧ r.id = id

variable {s : Selection} {w w' : Workspace} {l l' : Ledger}

/-- A target that a focus leaves is not pruned exactly when the sources need it. -/
theorem unpruned_focus_iff (done : s.focus w l = .ok (w', l')) {t : OwnedTarget}
    (member : t ∈ w'.owned) :
    t.target.pruned = false ↔ w.Needs (s.sources w).toList t.identity := by
  have focused := focused_of_focus done
  obtain ⟨id, found⟩ := Workspace.mem_owned_iff.mp member
  rw [← Workspace.live_iff_of_found found]
  constructor
  · exact focused.needs found
  · -- The target stands where one of the same identity was found before.
    intro needed
    obtain ⟨u, there, outline⟩ := Workspace.exists_ownedTarget?_of_outline focused.outline found
    rw [OwnedTarget.identity, OwnedTarget.id_of_outline outline] at needed
    exact (focused.live id).mpr ⟨u, there, needed⟩

/-- What is requested in the end are the sources of an explicit selection, as they are spelled. -/
theorem mem_requested_iff {id : TargetId} :
    id ∈ (l.recordRequested (s.requested w)).requested.toList ↔
      (s.included.toList ≠ [] ∨ s.testPlan ≠ none) ∧ ∃ r, s.Picks w r ∧ r.id = id := by
  -- Sources are ordered by their identities, so that none of them is lost.
  have ordered : ((s.sources w).toList.map OwnedTarget.id).Pairwise fun a b => compare a b = .lt :=
    List.pairwise_map.mpr (s.sources w).ordered
  rw [← isExplicit_iff, Ledger.recordRequested, requested]
  split
  · rename_i explicit
    simp only [SortedSet.toList_collect_of_ordered ordered, explicit, true_and, List.mem_map,
      mem_sources_iff]
  · rename_i implicit
    simp [implicit, SortedSet.toList_collect_of_ordered]

/-- Whatever the keys of a workspace are, a focus that succeeds leaves unpruned exactly the targets
whose identities are reached from one that the selection picks, changes nothing else in the
workspace, and requests the targets that an explicit selection picks; and the focus comes to the
same whatever is pruned before. -/
theorem prunes_rest (s : Selection) (w : Workspace) (l : Ledger) :
    (∀ o, ((StandardPass.focus s).run w l).result = .ok o → s.Prunes w l o) ∧
      ∀ v : Workspace, v.revived = w.revived → v.dependencies = w.dependencies →
        (StandardPass.focus s).run v l = (StandardPass.focus s).run w l := by
  -- A focus looks at revived targets and at edges only, and writes nothing but the flags.
  constructor
  · intro o ran
    obtain ⟨w', l', done, rfl⟩ := StandardPass.run_focus_eq_ok.mp ran
    have ledger : l' = l.recordRequested (s.requested w) := by
      obtain ⟨_, _, _, _, ledger⟩ := focus_eq_ok.mp done
      exact ledger
    subst ledger
    refine ⟨fun t member => ?_, revived_focus done, dependencies_focus done, rfl, rfl,
      fun _ => mem_requested_iff⟩
    rw [unpruned_focus_iff done member, needs_sources_iff]
  · intro v same kept
    rw [StandardPass.run, StandardPass.run, focus_of_revived same kept]

end Selection

namespace Sample

/-- A project with a library that is declared under another name than its own. -/
def renamed : Project where
  -- The key of a target and its name differ, so the keys are not consistent.
  path := ⟨"/A"⟩
  name := "A"
  targets := .ofList [("App", { name := "App", product := .app, pruned := true }),
    ("Kernel", { name := "Core", product := .framework, pruned := true }),
    ("Tests", { name := "Tests", product := .unitTests })]

/-- The project stored under another path than its own. -/
def moved : Workspace where
  projects := .ofList [(⟨"/B"⟩, renamed)]
  -- One edge ends where nothing is found, and one at no target.
  dependencies := Dependencies.add {} (.target "App" ⟨"/A"⟩)
    [.target "Kernel" ⟨"/B"⟩, .target "Core" ⟨"/A"⟩, .sdk "UIKit"]

/-- The application without its library. -/
def application : Selection where
  -- What is excluded can still be needed.
  included := .ofList ["App"]
  excluded := .ofList ["Core"]

/-- What a focus on the application leaves. -/
def movedOutcome : Outcome where
  -- Pruned is what the names say, and the library is found under another one.
  workspace := Selection.focusOn moved (.collect (["Kernel", "App"].filterMap fun name =>
    moved.ownedTarget? ⟨⟨"/B"⟩, name⟩))
  ledger := { requested := .ofList [⟨⟨"/A"⟩, "App"⟩] }

end Sample

/-- The library is found by its keys, and is kept though it is excluded; the tests are pruned, and
only the application is requested. -/
theorem Selection.prunes_rest_of_sample :
    ((StandardPass.focus Sample.application).run Sample.moved {}).result =
      .ok Sample.movedOutcome ∧
    Sample.application.Prunes Sample.moved {} Sample.movedOutcome ∧
    Sample.application.Reaches Sample.moved ((Path.mk "/A").components, "Core") ∧
    ¬ Sample.application.Reaches Sample.moved ((Path.mk "/A").components, "Tests") := by
  have ended : Sample.moved.followed (Sample.application.sources Sample.moved) 20 =
      some (.ok (["Kernel", "App"].filterMap fun name =>
        Sample.moved.ownedTarget? ⟨⟨"/B"⟩, name⟩)) := rfl
  have ran : ((StandardPass.focus Sample.application).run Sample.moved {}).result =
      .ok Sample.movedOutcome :=
    StandardPass.run_focus_eq_ok.mpr ⟨_, _, focus_of_followed rfl ended, rfl⟩
  have prunes := (prunes_rest Sample.application Sample.moved {}).1 _ ran
  -- What is reached can be read off the targets that are left.
  obtain ⟨core, there, same, kept⟩ : ∃ t ∈ Sample.movedOutcome.workspace.owned,
      t.identity = ((Path.mk "/A").components, "Core") ∧ t.target.pruned = false := by decide
  obtain ⟨tests, also, alike, dropped⟩ : ∃ t ∈ Sample.movedOutcome.workspace.owned,
      t.identity = ((Path.mk "/A").components, "Tests") ∧ ¬ t.target.pruned = false := by decide
  refine ⟨ran, prunes, ?_, ?_⟩
  · rw [← same]
    exact (prunes.unpruned core there).mp kept
  · rw [← alike]
    exact mt (prunes.unpruned tests also).mpr dropped

end BuildGraph
