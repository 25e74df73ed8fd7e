import BuildGraph.Proofs.Focus
import BuildGraph.Proofs.Run
import BuildGraph.Proofs.Substitution
import BuildGraph.Settings

/-! A run can be followed step by step: what a search comes to within some number of steps is what
it comes to, and closures, selections and substitutions are made of searches. A small workspace is
there to be followed. -/

namespace BuildGraph

namespace DepthFirst

universe u

variable {α : Type u} {cmp : α → α → Ordering}

/-- What a search comes to within a number of steps, if it ends by then. -/
def Sorter.within (successors : α → List α) : Nat → Sorter α cmp → Option (Except (List α) (List α))
  -- The number of steps makes it a function that can be evaluated.
  | 0, _ => none
  | steps + 1, s =>
    match s.step successors with
    | .finished order => some (.ok order)
    | .loop nodes => some (.error nodes)
    | .next t => within successors steps t

variable [Std.TransCmp cmp] {roots : List α} {successors : α → List α}

/-- A search that has ended within some number of steps comes to no more later. -/
theorem Sorter.run_of_within {finite : FinitelyReachable roots successors} {steps : Nat}
    {s : Sorter α cmp} {reach : s.Within roots successors} {result : Except (List α) (List α)}
    (ended : s.within successors steps = some result) : s.run finite reach = result := by
  -- The induction is on the number of steps, and each of them is one of the search.
  induction steps generalizing s with
  | zero => simp [within] at ended
  | succ steps ih =>
    rw [within] at ended
    rw [run]
    split at ended
    · rename_i order stepped
      split <;> simp_all
    · rename_i nodes stepped
      split <;> simp_all
    · -- Both take the same step, and the induction goes on from there.
      rename_i t stepped
      split
      · rename_i order also
        simp [stepped] at also
      · rename_i nodes also
        simp [stepped] at also
      · rename_i t' also
        have same : t = t' := by simpa [stepped] using also
        subst same
        exact ih ended

/-- Sorting gives what its search comes to within some number of steps. -/
theorem sort_of_within {finite : FinitelyReachable roots successors} {steps : Nat}
    {result : Except (List α) (List α)}
    (ended : ({ roots } : Sorter α cmp).within successors steps = some result) :
    sort cmp roots successors finite = result :=
  -- A run that can be followed is the run.
  Sorter.run_of_within ended

end DepthFirst

variable {w : Workspace} {l : Ledger} {steps : Nat}

namespace Workspace

/-- The search for the closure of some targets, followed for a number of steps. -/
def followed (w : Workspace) (sources : SortedSet OwnedTarget) (steps : Nat) :
    Option (Except (List OwnedTarget) (List OwnedTarget)) :=
  -- A search that ends within the steps ends so without them.
  ({ roots := sources.toList } : DepthFirst.Sorter OwnedTarget compare).within
    (fun t => (w.directDependencies t.id).toList) steps

/-- A closure collects what the search for it lists. -/
theorem closure_of_followed {sources : SortedSet OwnedTarget} {order : List OwnedTarget}
    (ended : w.followed sources steps = some (.ok order)) :
    w.closure sources = .ok (.collect order) := by
  -- The search is the one that the closure is made of.
  have sorted : DepthFirst.sort compare sources.toList
      (fun t => (w.directDependencies t.id).toList) (w.finitelyReachable sources.toList) =
      .ok order :=
    DepthFirst.sort_of_within ended
  simp only [closure, sorted]

/-- A substitution can be followed where some live target has an artefact. -/
theorem substitute_of_followed {table : ArtifactTable} {r : Replacement} {rest : List Replacement}
    {order : List OwnedTarget} (found : w.replaceable table = r :: rest)
    (ended : ((r :: rest).foldl replace w).followed
      (((r :: rest).foldl replace w).liveSources (w.liveRoots l)) steps = some (.ok order)) :
    w.substitute table l = .ok (((r :: rest).foldl replace w).keepOnly (.collect order),
      (r :: rest).foldl Ledger.recordReplacement l) := by
  -- What is pruned is what the followed search does not list.
  have pruned := pruneUnreachable_eq_ok.mpr ⟨_, closure_of_followed ended, rfl⟩
  exact substitute_eq_ok.mpr (.inr ⟨by simp [found], by rw [found]; exact pruned, by rw [found]⟩)

end Workspace

/-- A focus can be followed where its selection is not refused. -/
theorem Selection.focus_of_followed {s : Selection} {order : List OwnedTarget}
    (granted : s.refusal? w = none)
    (ended : w.followed (s.sources w) steps = some (.ok order)) :
    s.focus w l = .ok (focusOn w (.collect order), l.recordRequested (s.requested w)) :=
  -- What the closure lists is all that the focus keeps.
  focus_eq_ok.mpr ⟨granted, _, Workspace.closure_of_followed ended, rfl, rfl⟩

namespace Sample

/-- A script that makes one library. -/
def build : ForeignBuild where
  script := "make kit"
  output := ⟨⟨"out/Kit.a"⟩, .static⟩

/-- A project with an application, a library, and a target with a script of its own. -/
def project : Project where
  path := ⟨"/A"⟩
  name := "A"
  targets := .ofList [("App", { name := "App", product := .app }),
    ("Core", { name := "Core", product := .framework }),
    ("Kit", { name := "Kit", product := .staticLibrary, foreignBuild := some build })]

/-- A workspace whose application needs both other targets of its project. -/
def workspace : Workspace where
  -- The third target is built by a script, so the whole run asks for a command.
  projects := .ofList [(project.path, project)]
  dependencies := Dependencies.add {} (.target "App" project.path)
    [.target "Core" project.path, .target "Kit" project.path]

/-- An artefact for the library. -/
def artifacts : ArtifactTable :=
  .ofList [("Core", ⟨⟨"/cache/Core"⟩, .framework, .dynamic⟩)]

/-- Nothing that is asked about is there. -/
def nothingThere : Probe :=
  -- With this probe everything active is built.
  fun _ => .ok false

/-- Settings that have an artefact for the library. -/
def settings : Settings where
  artifacts := artifacts

/-- Targets of the project by their names. -/
def targets (w : Workspace) (names : List String) : List OwnedTarget :=
  -- The order of the names is kept, so an order of a search can be written down.
  names.filterMap fun name => w.ownedTarget? ⟨project.path, name⟩

/-- The small workspace focused on all that it has. -/
def focused : Workspace :=
  -- The order of the search is given, and checked where it is used.
  Selection.focusOn workspace.wired (.collect (targets workspace.wired ["Core", "Kit", "App"]))

/-- The small workspace with its library replaced. -/
def replaced : Workspace :=
  (focused.replaceable artifacts).foldl Workspace.replace focused

/-- What the whole run makes of the small workspace. -/
def outcome : Outcome where
  -- The pieces are those that the passes make, put together by hand.
  workspace := replaced.keepOnly (.collect (targets replaced ["Kit", "App"]))
  sideEffects := [buildCommand project.path build.script]
  ledger := (focused.replaceable artifacts).foldl Ledger.recordReplacement {}

/-- The focus lists the library and the foreign build before the application that needs them. -/
theorem focus_workspace : settings.selection.focus workspace.wired {} = .ok (focused, {}) := by
  -- The search is followed for as many steps as it takes.
  have ended : workspace.wired.followed (settings.selection.sources workspace.wired) 20 =
      some (.ok (targets workspace.wired ["Core", "Kit", "App"])) := rfl
  exact Selection.focus_of_followed rfl ended

/-- The substitution lists the foreign build before the application, and no library. -/
theorem substitute_focused : focused.substitute artifacts {} =
    .ok (outcome.workspace, outcome.ledger) := by
  -- The search below the live roots is followed for as many steps as it takes.
  have ended : replaced.followed (replaced.liveSources (focused.liveRoots {})) 20 =
      some (.ok (targets replaced ["Kit", "App"])) := rfl
  exact Workspace.substitute_of_followed rfl ended

/-- The run on the small workspace succeeds. -/
theorem run_workspace :
    ((settings.pipeline nothingThere).run workspace).result = .ok outcome := by
  -- Wiring and scheduling are evaluated, and the two passes between them are followed.
  have asked : (outcome.workspace.schedule outcome.ledger nothingThere).result =
      .ok outcome.sideEffects := rfl
  have second : (Pipeline.runAll workspace.wired {}
      [(StandardPass.focus settings.selection).toPass, (StandardPass.caching artifacts).toPass,
        (StandardPass.scheduling nothingThere).toPass]).result = .ok outcome :=
    Pipeline.runAll_focus focus_workspace <|
      Pipeline.runAll_caching substitute_focused (Pipeline.runAll_scheduling asked)
  exact Pipeline.runAll_cons_eq_ok.mpr ⟨_, _, StandardPass.run_wiring, second, rfl⟩

end Sample

end BuildGraph
