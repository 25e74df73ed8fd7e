import BuildGraph.Proofs.Focus
import BuildGraph.Proofs.Substitution

/-! Of the projects, selections and substitutions change nothing but which targets are pruned, and
projects are the same when their targets are the same apart from that and the same ones are live. -/

namespace BuildGraph

/-- A target as it is when it is not pruned. -/
def Target.revived (t : Target) : Target :=
  -- The flag is the only thing that is forgotten.
  { t with pruned := false }

/-- Targets are the same when they are the same apart from being pruned and both are or neither. -/
theorem Target.eq_of_revived {t u : Target} (same : t.revived = u.revived)
    (marks : t.pruned = u.pruned) : t = u := by
  -- All fields but one are compared in the revived targets, and that one on its own.
  cases t
  cases u
  simp only [revived, Target.mk.injEq] at same marks
  simp [same, marks]

namespace Workspace

variable {w w' : Workspace} {l l' : Ledger}

/-- The projects of a workspace as they are when no target is pruned. -/
def revived (w : Workspace) : SortedMap Path Project :=
  -- The keys stay as they are spelled.
  w.projects.map (Project.seen Target.revived)

/-- Where workspaces are the same apart from what is pruned, so are the targets that they have. -/
theorem target?_of_revived (same : w'.revived = w.revived) (id : TargetId) :
    (w'.target? id).map Target.revived = (w.target? id).map Target.revived := by
  -- What is found in the revived projects is what is found, revived.
  have found : ∀ w : Workspace, (w.target? id).map Target.revived =
      (w.revived.get? id.path).bind fun p => p.targets.get? id.name := by
    intro w
    simp only [target?, revived, SortedMap.get?_map, Option.bind_eq_bind]
    cases w.projects.get? id.path <;> simp [Project.seen]
  rw [found, found, same]

/-- Workspaces that are the same apart from what is pruned have the same targets if the same ones
are live. -/
theorem target?_of_live (same : w'.revived = w.revived) (live : ∀ id, w'.Live id ↔ w.Live id)
    (id : TargetId) : w'.target? id = w.target? id := by
  -- What is found on both sides is live on both or on neither.
  have revived := target?_of_revived same id
  have marks := live id
  simp only [Live] at marks
  cases found : w.target? id with
  | none => simpa [found] using revived
  | some t =>
    rw [found] at revived
    obtain ⟨u, also, alike⟩ := Option.map_eq_some_iff.mp revived
    rw [also, found] at marks
    simp only [Option.some.injEq, exists_eq_left'] at marks
    rw [also, Target.eq_of_revived alike (Bool.eq_iff_iff.mpr (by simpa using not_congr marks))]

/-- Passing every target through a function that does not look at whether it is pruned makes the
same of workspaces that are the same apart from that. -/
theorem mapTargets_of_revived {f : Path → Target → Target}
    (blind : ∀ path t, f path t.revived = f path t) (same : w'.revived = w.revived)
    (kept : w'.dependencies = w.dependencies) : w'.mapTargets f = w.mapTargets f := by
  -- The function can be seen as one of the revived projects.
  have own : ∀ w : Workspace, w.mapTargets f =
      ({ projects := w.revived, dependencies := w.dependencies } : Workspace).mapTargets f := by
    intro w
    simp [mapTargets, revived, SortedMap.map, DeclaredMap.map, Project.seen, blind]
  rw [own w', own w, same, kept]

/-- Workspaces that are the same apart from what is pruned have the same outline. -/
theorem outline_of_revived (same : w'.revived = w.revived) : w'.outline = w.outline := by
  -- The outline looks at nothing but the revived projects.
  have own : ∀ w : Workspace, w.outline.projects = w.revived.map Project.outline := by
    intro w
    simp [outline, revived, SortedMap.map, DeclaredMap.map, Project.outline, Project.seen,
      Target.outline, Target.revived, Function.comp_def]
  have projects : w'.outline.projects = w.outline.projects := by rw [own w', own w, same]
  exact congrArg (fun projects => ({ projects } : Workspace)) projects

/-- Workspaces that are the same apart from what is pruned have the same projects if the same
targets are live. -/
theorem projects_of_revived (same : w'.revived = w.revived)
    (live : ∀ id, w'.Live id ↔ w.Live id) : w'.projects = w.projects :=
  -- Each target is the same but for its flag, and liveness tells the flag.
  projects_of_outline (outline_of_revived same) (target?_of_live same live)

/-- Replacing several targets changes nothing in projects but which targets are pruned. -/
theorem revived_replaceAll (w : Workspace) (rs : List Replacement) :
    (rs.foldl replace w).revived = w.revived := by
  -- Targets are pruned one after another.
  induction rs generalizing w with
  | nil => rfl
  | cons r rest ih =>
    rw [List.foldl_cons, ih, replace_eq]
    refine (w.redirected r).seen_modifyTarget ?_ r.target
    intro t
    rfl

/-- Pruning what the roots do not lead to changes nothing in projects but which targets are
pruned. -/
theorem revived_pruneUnreachable {roots : SortedSet TargetId}
    (done : w.pruneUnreachable roots = .ok w') : w'.revived = w.revived := by
  -- Whether it is pruned or kept, a target changes in its flag only.
  obtain ⟨needed, _, rfl⟩ := pruneUnreachable_eq_ok.mp done
  refine w.seen_mapTargets fun path t => ?_
  split <;> rfl

/-- A substitution changes nothing in projects but which targets are pruned. -/
theorem revived_substitute {table : ArtifactTable}
    (done : w.substitute table l = .ok (w', l')) : w'.revived = w.revived := by
  -- Replacing and pruning set flags and nothing else.
  rcases substitute_eq_ok.mp done with ⟨_, rfl, _⟩ | ⟨_, pruned, _⟩
  · rfl
  · rw [revived_pruneUnreachable pruned, revived_replaceAll]

end Workspace

namespace Selection

variable {s : Selection} {w w' : Workspace} {l l' : Ledger}

/-- A focus changes nothing in projects but which targets are pruned. -/
theorem revived_focus (done : s.focus w l = .ok (w', l')) : w'.revived = w.revived := by
  -- A focus sets the flag of every target and nothing else.
  obtain ⟨_, needed, _, rfl, _⟩ := focus_eq_ok.mp done
  exact w.seen_mapTargets fun _ _ => rfl

/-- A focus changes no dependencies. -/
theorem dependencies_focus (done : s.focus w l = .ok (w', l')) :
    w'.dependencies = w.dependencies := by
  -- The dependencies are no part of what a focus maps.
  obtain ⟨_, needed, _, rfl, _⟩ := focus_eq_ok.mp done
  rfl

/-- A focus comes to the same whatever is pruned before. -/
theorem focus_of_revived (same : w'.revived = w.revived)
    (kept : w'.dependencies = w.dependencies) : s.focus w' l = s.focus w l := by
  have edges : ∀ id, w'.targetEdges id = w.targetEdges id := by
    intro id
    simp only [Workspace.targetEdges, Workspace.dependenciesOf, kept]
  rw [focus_of_outline (Workspace.outline_of_revived same) edges, focus_of_outline rfl fun _ => rfl]
  -- The marks that a focus leaves do not depend on those that it finds.
  have marks : ∀ needed, focusOn w' needed = focusOn w needed := fun needed =>
    Workspace.mapTargets_of_revived (fun _ _ => rfl) same kept
  simp only [marks]

end Selection

end BuildGraph
