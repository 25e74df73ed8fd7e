import BuildGraph.Proofs.Marks
import BuildGraph.Proofs.Trace

/-! Of several selections in a row the last one decides, whatever the others have left. -/

namespace BuildGraph

/-- What two workspaces and their ledgers have in common when they differ at most in which targets
are pruned and which are requested. -/
structure Workspace.Reselected (w : Workspace) (l : Ledger) (w' : Workspace) (l' : Ledger) :
    Prop where
  -- Targets are compared as if none were pruned, and requests are not compared.
  projects : w'.revived = w.revived
  dependencies : w'.dependencies = w.dependencies
  replacements : l'.replacements = l.replacements

namespace Workspace.Reselected

variable {w w' w'' : Workspace} {l l' l'' : Ledger}

/-- Nothing differs from itself. -/
theorem refl (w : Workspace) (l : Ledger) : w.Reselected l w l :=
  -- All three fields compare a thing with itself.
  ⟨rfl, rfl, rfl⟩

/-- What two inputs have in common with a third one they have in common with each other. -/
theorem trans (first : w.Reselected l w' l') (second : w'.Reselected l' w'' l'') :
    w.Reselected l w'' l'' where
  -- Equality is transitive in each field.
  projects := second.projects.trans first.projects
  dependencies := second.dependencies.trans first.dependencies
  replacements := second.replacements.trans first.replacements

/-- A focus changes nothing but which targets are pruned and which are requested. -/
theorem of_focus {s : Selection} {o : Outcome}
    (ran : ((StandardPass.focus s).run w l).result = .ok o) :
    w.Reselected l o.workspace o.ledger := by
  obtain ⟨w', l', done, rfl⟩ := StandardPass.run_focus_eq_ok.mp ran
  -- Of the ledger, only the requests are written.
  have ledger : l' = l.recordRequested (s.requested w) := by
    obtain ⟨_, _, _, _, ledger⟩ := Selection.focus_eq_ok.mp done
    exact ledger
  subst ledger
  exact ⟨s.revived_focus done, s.dependencies_focus done, rfl⟩

end Workspace.Reselected

/-- New requests take the place of whatever was requested before. -/
theorem Ledger.recordRequested_congr {l l' : Ledger} (same : l'.replacements = l.replacements)
    (ids : List TargetId) : l'.recordRequested ids = l.recordRequested ids := by
  -- The requests from before are dropped, and the replacements are the same.
  simp only [recordRequested, same]

namespace Selection

variable {s : Selection} {w w' : Workspace} {l l' : Ledger}

/-- A focus comes to the same whatever is pruned and requested before. -/
theorem focus_of_reselected (same : w.Reselected l w' l') : s.focus w' l' = s.focus w l := by
  rw [focus_of_revived same.projects same.dependencies]
  -- On one workspace, the ledger has a say only in what becomes of it.
  rw [focus_of_outline rfl fun _ => rfl, focus_of_outline rfl fun _ => rfl,
    Ledger.recordRequested_congr same.replacements]

end Selection

namespace Pipeline

variable {w : Workspace} {l : Ledger} {o : Outcome}

/-- A run of nothing but selections changes nothing but which targets are pruned and which are
requested. -/
theorem reselected_of_runAll {selections : List Selection}
    (ran : (runAll w l (selections.map fun s => (StandardPass.focus s).toPass)).result = .ok o) :
    w.Reselected l o.workspace o.ledger := by
  -- The invariant is what the input and the state of the run have in common.
  refine runAll_keeps (fun w' l' => w.Reselected l w' l') ?_ (.refl w l) ran
  intro pass member w' l' o' before began
  obtain ⟨s, _, rfl⟩ := List.mem_map.mp member
  exact before.trans (.of_focus began)

end Pipeline

namespace Selection

/-- A focus comes to one and the same attempt on inputs that differ at most in which targets are
pruned and which are requested: to the same error, or to the same workspace and ledger. So it comes
to the same after any other selections as without them, and the second of two equal selections
changes nothing. -/
theorem last_focus_wins (s : Selection) (w : Workspace) (l : Ledger) :
    (∀ w' l', w.Reselected l w' l' →
      (StandardPass.focus s).run w' l' = (StandardPass.focus s).run w l) ∧
    (∀ s' o, ((StandardPass.focus s').run w l).result = .ok o →
      (StandardPass.focus s).run o.workspace o.ledger = (StandardPass.focus s).run w l) ∧
    (∀ (earlier : List Selection) o, (Pipeline.runAll w l
        (earlier.map fun s' => (StandardPass.focus s').toPass)).result = .ok o →
      (StandardPass.focus s).run o.workspace o.ledger = (StandardPass.focus s).run w l) ∧
    ∀ o, ((StandardPass.focus s).run w l).result = .ok o →
      ((StandardPass.focus s).run o.workspace o.ledger).result = .ok o := by
  -- All of it follows from the first part, since selections leave the rest of their input alone.
  have decides : ∀ w' l', w.Reselected l w' l' →
      (StandardPass.focus s).run w' l' = (StandardPass.focus s).run w l := by
    intro w' l' same
    rw [StandardPass.run, StandardPass.run, focus_of_reselected same]
  refine ⟨decides, fun s' o ran => decides _ _ (.of_focus ran), fun earlier o ran => ?_,
    fun o ran => ?_⟩
  · exact decides _ _ (Pipeline.reselected_of_runAll ran)
  · rw [decides _ _ (.of_focus ran), ran]

end Selection

namespace Sample

/-- The library alone. -/
def libraryOnly : Selection where
  -- The application is left out, which needs the library.
  included := .ofList ["Core"]

/-- What a focus on the library makes of the small workspace. -/
def libraryOutcome : Outcome where
  -- Requested is what was named, and not what that needs.
  workspace := Selection.focusOn workspace (.collect (targets workspace ["Core"]))
  ledger := { requested := .ofList [⟨project.path, "Core"⟩] }

end Sample

/-- After a focus on the library, which prunes the other targets, a second one changes nothing, and
a focus on everything comes to what it comes to at first: it revives them and requests nothing. -/
theorem Selection.last_focus_wins_of_sample :
    ((StandardPass.focus Sample.libraryOnly).run Sample.workspace {}).result =
      .ok Sample.libraryOutcome ∧
    Sample.libraryOutcome.workspace.prunedTargets.toList =
      ["App", "Kit"].map (TargetId.mk Sample.project.path) ∧
    Sample.workspace.Reselected {} Sample.libraryOutcome.workspace Sample.libraryOutcome.ledger ∧
    ((StandardPass.focus Sample.libraryOnly).run Sample.libraryOutcome.workspace
      Sample.libraryOutcome.ledger).result = .ok Sample.libraryOutcome ∧
    (StandardPass.focus {}).run Sample.libraryOutcome.workspace Sample.libraryOutcome.ledger =
      (StandardPass.focus {}).run Sample.workspace {} ∧
    ∃ o, ((StandardPass.focus {}).run Sample.libraryOutcome.workspace
        Sample.libraryOutcome.ledger).result = .ok o ∧
      o.workspace.prunedTargets = {} ∧ o.ledger.requested = {} := by
  -- Both searches are followed to their ends, and the general statement does the rest.
  have first : Sample.workspace.followed (Sample.libraryOnly.sources Sample.workspace) 20 =
      some (.ok (Sample.targets Sample.workspace ["Core"])) := rfl
  have ran : ((StandardPass.focus Sample.libraryOnly).run Sample.workspace {}).result =
      .ok Sample.libraryOutcome :=
    StandardPass.run_focus_eq_ok.mpr ⟨_, _, focus_of_followed rfl first, rfl⟩
  have all : Sample.workspace.followed (({} : Selection).sources Sample.workspace) 20 =
      some (.ok (Sample.targets Sample.workspace ["Core", "Kit", "App"])) := rfl
  have alone : ((StandardPass.focus {}).run Sample.workspace {}).result = .ok _ :=
    StandardPass.run_focus_eq_ok.mpr ⟨_, _, focus_of_followed rfl all, rfl⟩
  have alike : Sample.workspace.Reselected {} Sample.libraryOutcome.workspace
      Sample.libraryOutcome.ledger := .of_focus ran
  have again := (last_focus_wins Sample.libraryOnly Sample.workspace {}).2.2.2 _ ran
  have same := (last_focus_wins {} Sample.workspace {}).1 _ _ alike
  refine ⟨ran, by decide, alike, again, same, ?_⟩
  rw [same]
  exact ⟨_, alone, by decide, rfl⟩

end BuildGraph
