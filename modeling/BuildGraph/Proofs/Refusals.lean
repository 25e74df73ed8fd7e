import BuildGraph.Proofs.ByteOrder
import BuildGraph.Proofs.DepthFirst.Loop
import BuildGraph.Proofs.Pruning

/-! A focus fails exactly where its selection asks for what is not there or leads to a loop, and
says what that is. -/

namespace BuildGraph

open Relation

namespace Selection

/-- A selection is about a test plan that no project declares. -/
def LacksPlan (s : Selection) (w : Workspace) (plan : String) : Prop :=
  -- A test plan has no say where names are included.
  s.included.toList = [] ∧ s.testPlan = some plan ∧
    ∀ p ∈ w.projects.values, ∀ declared ∈ p.testPlans, declared.name ≠ plan

/-- A name is included that is excluded as well, or that no target of a local project has. -/
def LacksName (s : Selection) (w : Workspace) (name : String) : Prop :=
  -- A target that the name could mean may be there, and be external.
  name ∈ s.included.toList ∧ (name ∈ s.excluded.toList ∨
    ∀ t ∈ w.allTargets.toList, t.project.origin = .local → t.name ≠ name)

/-- A loop of references that the targets of a selection point to, from the smallest one around to
that one again. -/
structure ShowsLoop (s : Selection) (w : Workspace) (loop : List TargetId) : Prop where
  two_le : 2 ≤ loop.length
  closed : loop.head? = loop.getLast?
  edges : loop.IsChain fun a b => w.PointsTo a.identity b.identity
  -- The first reference stands at the end again, and no other is repeated.
  distinct : (loop.dropLast.map TargetId.identity).Nodup
  reached : ∀ id ∈ loop, s.Reaches w id.identity
  smallest : ∀ first ∈ loop.head?, ∀ id ∈ loop.tail.dropLast, compare first id = .lt

/-- What the result of a focus says of the selection, and when. -/
structure Verdict (s : Selection) (w : Workspace) (result : Except PassError Outcome) : Prop where
  testPlan : ∀ plan, result = .error (.testPlanNotFound plan) ↔ s.LacksPlan w plan
  names : (∃ names, result = .error (.targetsNotFound names)) ↔ ∃ name, s.LacksName w name
  -- All names that are lacking are listed, each of them once.
  listed : ∀ names, result = .error (.targetsNotFound names) →
    (names.Pairwise fun a b => Text.bytes a < Text.bytes b) ∧
      ∀ name, name ∈ names ↔ s.LacksName w name
  looped : (∃ loop, result = .error (.cyclicDependency loop)) ↔
    (∀ plan, ¬ s.LacksPlan w plan) ∧ (∀ name, ¬ s.LacksName w name) ∧
      ∃ k, s.Reaches w k ∧ TransGen w.PointsTo k k
  shown : ∀ loop, result = .error (.cyclicDependency loop) → s.ShowsLoop w loop
  succeeds : (∃ o, result = .ok o) ↔
    (∀ plan, ¬ s.LacksPlan w plan) ∧ (∀ name, ¬ s.LacksName w name) ∧
      ∀ k, s.Reaches w k → ¬ TransGen w.PointsTo k k

variable {s : Selection} {w : Workspace} {l : Ledger}

/-- The test plan that a selection is refused for is one that is lacking. -/
theorem lacksPlan_iff {plan : String} :
    (s.filter.activePlan?.filter fun plan => (w.testPlan? plan).isNone) = some plan ↔
      s.LacksPlan w plan := by
  -- A test plan is found unless no project declares it.
  simp only [Option.filter_eq_some_iff, activePlan?_eq_some_iff, Option.isNone_iff_eq_none,
    Workspace.testPlan?, Workspace.testPlans, List.find?_eq_none, List.mem_flatMap,
    decide_eq_true_eq, forall_exists_index, and_imp, LacksPlan, and_assoc]
  refine and_congr_right fun _ => and_congr_right fun _ => ?_
  exact ⟨fun none p stored declared there => none declared p stored there,
    fun none declared p stored there => none p stored declared there⟩

/-- The names that are missing are those that are lacking. -/
theorem mem_missing_iff {name : String} : name ∈ s.missing w ↔ s.LacksName w name := by
  simp only [missing, List.mem_filter, Bool.not_eq_true', List.contains_eq_mem,
    decide_eq_false_iff_not, List.mem_map, mem_sources_iff, LacksName]
  refine and_congr_right fun given => ?_
  -- Where names are included, a target is picked when its own is and is not excluded.
  have some : s.included.toList ≠ [] := List.ne_nil_of_mem given
  simp only [Picks, if_neg some, not_exists, not_and]
  constructor
  · intro none
    by_cases out : name ∈ s.excluded.toList
    · exact .inl out
    · refine .inr fun t there origin same => none t ⟨there, origin, ?_, ?_⟩ same
      · rwa [same]
      · rwa [same]
  · rintro (out | none) t ⟨there, origin, kept, _⟩ same
    · exact kept (same ▸ out)
    · exact none t there origin same

/-- The missing names stand in the order of their bytes. -/
theorem missing_ordered : (s.missing w).Pairwise fun a b => Text.bytes a < Text.bytes b := by
  -- They are some of the included names, which stand in this order.
  have part : (s.missing w).Sublist s.included.toList := List.filter_sublist
  exact (s.included.ordered.sublist part).imp fun less =>
    Text.bytes_lt (compareOfLessAndEq_eq_lt.mp less)

/-- A selection is refused for its test plan, or else for the names that are missing, or not at
all. -/
theorem refusal?_cases (s : Selection) (w : Workspace) :
    (∃ plan, s.LacksPlan w plan ∧ s.refusal? w = some (.testPlanNotFound plan)) ∨
      (∀ plan, ¬ s.LacksPlan w plan) ∧
        (s.missing w ≠ [] ∧ s.refusal? w = some (.targetsNotFound (s.missing w)) ∨
          s.missing w = [] ∧ s.refusal? w = none) := by
  -- The plan is looked at first, and the names only if there is nothing wrong with it.
  simp only [← lacksPlan_iff, ← Option.eq_none_iff_forall_ne_some, refusal?]
  cases s.filter.activePlan?.filter fun plan => (w.testPlan? plan).isNone with
  | some plan => exact .inl ⟨plan, rfl, rfl⟩
  | none =>
    right
    by_cases empty : s.missing w = []
    · simp [empty]
    · simp [empty]

/-- A selection is refused for its test plan exactly when that is lacking. -/
theorem refusal?_eq_testPlan {plan : String} :
    s.refusal? w = some (.testPlanNotFound plan) ↔ s.LacksPlan w plan := by
  rcases s.refusal?_cases w with ⟨other, lacking, refused⟩ | ⟨found, ⟨_, refused⟩ | ⟨_, granted⟩⟩
  · -- A selection has one test plan.
    rw [refused]
    constructor
    · intro same
      cases same
      exact lacking
    · intro also
      obtain rfl : other = plan := by simpa [lacking.2.1] using also.2.1
      rfl
  · simp [refused, found plan]
  · simp [granted, found plan]

/-- A selection is refused for names exactly when some are missing, and then for all of them. -/
theorem refusal?_eq_names {names : List String} :
    s.refusal? w = some (.targetsNotFound names) ↔ names ≠ [] ∧ names = s.missing w := by
  rcases s.refusal?_cases w with ⟨_, lacking, refused⟩ | ⟨_, ⟨some, refused⟩ | ⟨empty, granted⟩⟩
  · -- A test plan that is lacking has a say only where no names are included.
    have empty : s.missing w = [] := by simp [missing, lacking.1]
    simp [refused, empty]
  · simp only [refused, Option.some.injEq, PassError.targetsNotFound.injEq]
    exact ⟨fun same => ⟨same ▸ some, same.symm⟩, fun same => same.2.symm⟩
  · simp [granted, empty]

/-- A selection is not refused exactly when nothing is lacking. -/
theorem refusal?_eq_none_iff : s.refusal? w = none ↔
    (∀ plan, ¬ s.LacksPlan w plan) ∧ ∀ name, ¬ s.LacksName w name := by
  -- Of the three ways that a selection can go, one is without an error.
  have missing : s.missing w = [] ↔ ∀ name, ¬ s.LacksName w name := by
    simp only [List.eq_nil_iff_forall_not_mem, mem_missing_iff]
  rw [← missing]
  rcases s.refusal?_cases w with ⟨plan, lacking, refused⟩ | ⟨found, unnamed⟩
  · simp only [refused, reduceCtorEq, false_iff, not_and]
    exact fun found => absurd lacking (found plan)
  · rcases unnamed with ⟨some, refused⟩ | ⟨empty, granted⟩
    · simp [refused, some]
    · simp [granted, empty, found]

/-- What a search from the sources meets is reached by the selection. -/
theorem reaches_of_reachable {t : OwnedTarget} (met : Reachable (s.sources w).toList
    (fun t => (w.directDependencies t.id).toList) t) : s.Reaches w t.identity := by
  rw [← needs_sources_iff]
  -- The induction is on how the search gets there.
  induction met with
  | root given => exact ⟨_, given, .refl⟩
  | step _ next ih =>
    exact ih.tail ((Workspace.leads_iff_mem _ _).mpr (List.mem_map_of_mem next))

/-- A loop among what the sources lead to shows itself in the references to its targets. -/
theorem showsLoop_of_loop {nodes : List OwnedTarget} (loop : DepthFirst.Loop compare
    (s.sources w).toList (fun t => (w.directDependencies t.id).toList) nodes) :
    s.ShowsLoop w (nodes.map OwnedTarget.id) where
  two_le := by simpa using loop.two_le
  closed := by simp [loop.closed]
  edges := by
    -- A target that follows another is one of its direct dependencies, up to its contents.
    refine (List.isChain_map _).mpr (loop.edges.imp fun a b ⟨c, next, same⟩ => ?_)
    have leads : w.Leads a.identity c.identity :=
      (Workspace.leads_iff_mem _ _).mpr (List.mem_map_of_mem next)
    rw [← OwnedTarget.compare_eq_iff.mp same, Workspace.leads_eq_pointsTo] at leads
    exact leads
  distinct := by
    rw [← List.map_dropLast, List.map_map]
    exact List.pairwise_map.mpr (loop.distinct.imp fun other same =>
      other (OwnedTarget.compare_eq_iff.mpr same))
  reached := by
    intro id member
    obtain ⟨t, there, rfl⟩ := List.mem_map.mp member
    exact reaches_of_reachable (loop.reachable t there)
  smallest := by
    intro first start id later
    rw [List.head?_map] at start
    obtain ⟨least, heads, rfl⟩ := Option.mem_map.mp start
    rw [← List.map_tail, ← List.map_dropLast] at later
    obtain ⟨t, there, rfl⟩ := List.mem_map.mp later
    exact loop.smallest least heads t there

/-- A loop that is met below the sources shows itself in the references to its targets. -/
theorem showsLoop_of_closure {loop : List TargetId}
    (stopped : w.closure (s.sources w) = .error loop) : s.ShowsLoop w loop := by
  -- The closure fails only if the sort does, and with the references to its loop.
  rw [Workspace.closure] at stopped
  split at stopped
  · cases stopped
  · rename_i nodes sorted
    cases stopped
    exact showsLoop_of_loop (DepthFirst.loop_of_sort sorted)

/-- There is a closure exactly where nothing that a selection reaches lies on a loop. -/
theorem exists_closure_iff : (∃ needed, w.closure (s.sources w) = .ok needed) ↔
    ∀ k, s.Reaches w k → ¬ TransGen w.PointsTo k k := by
  -- What is reached is what the sources need.
  simp only [← needs_sources_iff, ← Workspace.leads_eq_pointsTo]
  constructor
  · rintro ⟨needed, closed⟩
    exact (Workspace.closure_eq_ok closed).2
  · exact Workspace.exists_closure

/-- There is no closure exactly where something that a selection reaches lies on a loop. -/
theorem exists_closure_error_iff : (∃ loop, w.closure (s.sources w) = .error loop) ↔
    ∃ k, s.Reaches w k ∧ TransGen w.PointsTo k k := by
  -- Either there is a closure or there is a loop.
  have either : (∃ loop, w.closure (s.sources w) = .error loop) ↔
      ¬ ∃ needed, w.closure (s.sources w) = .ok needed := by
    cases w.closure (s.sources w) <;> simp
  rw [either, exists_closure_iff]
  simp only [not_forall, not_not, exists_prop]

/-- The result of a focus is a loop exactly where nothing is lacking and a loop is met. -/
theorem result_focus_eq_loop {loop : List TargetId} :
    ((StandardPass.focus s).run w l).result = .error (.cyclicDependency loop) ↔
      s.refusal? w = none ∧ w.closure (s.sources w) = .error loop := by
  -- No selection is refused for a loop.
  have other : s.refusal? w ≠ some (.cyclicDependency loop) := by
    rcases s.refusal?_cases w with ⟨_, _, refused⟩ | ⟨_, ⟨_, refused⟩ | ⟨_, granted⟩⟩
    · simp [refused]
    · simp [refused]
    · simp [granted]
  simp [StandardPass.run_focus_eq_error, focus_eq_error, other]

/-- Whatever the workspace and the ledger, a focus fails exactly where the test plan of its
selection is lacking, where included names are, or else where it reaches a loop; it says what is
lacking or shows the loop, and succeeds in all other cases. -/
theorem verdict_of_focus (s : Selection) (w : Workspace) (l : Ledger) :
    s.Verdict w ((StandardPass.focus s).run w l).result where
  testPlan plan := by
    simp [StandardPass.run_focus_eq_error, focus_eq_error, refusal?_eq_testPlan]
  names := by
    simp only [StandardPass.run_focus_eq_error, focus_eq_error, refusal?_eq_names, reduceCtorEq,
      and_false, exists_const, or_false, exists_eq_right, ne_eq, List.eq_nil_iff_forall_not_mem,
      mem_missing_iff, not_forall, not_not]
  listed names failed := by
    -- The names that are listed are those that are missing.
    obtain ⟨_, rfl⟩ : names ≠ [] ∧ names = s.missing w := by
      simpa [StandardPass.run_focus_eq_error, focus_eq_error, refusal?_eq_names] using failed
    exact ⟨missing_ordered, fun _ => mem_missing_iff⟩
  looped := by
    simp only [result_focus_eq_loop, exists_and_left, refusal?_eq_none_iff,
      exists_closure_error_iff, and_assoc]
  shown loop failed := showsLoop_of_closure (result_focus_eq_loop.mp failed).2
  succeeds := by
    rw [← exists_closure_iff, ← and_assoc, ← refusal?_eq_none_iff]
    constructor
    · rintro ⟨o, ran⟩
      obtain ⟨w', l', done, _⟩ := StandardPass.run_focus_eq_ok.mp ran
      obtain ⟨granted, needed, closed, _⟩ := focus_eq_ok.mp done
      exact ⟨granted, needed, closed⟩
    · rintro ⟨granted, needed, closed⟩
      exact ⟨_, StandardPass.run_focus_eq_ok.mpr
        ⟨_, _, focus_eq_ok.mpr ⟨granted, needed, closed, rfl, rfl⟩, rfl⟩⟩

end Selection

namespace Sample

/-- A project with an application and three libraries. -/
def tangledProject : Project where
  path := ⟨"/A"⟩
  name := "A"
  targets := .ofList [("App", { name := "App", product := .app }),
    ("Core", { name := "Core", product := .framework }),
    ("Kit", { name := "Kit", product := .framework }),
    ("Net", { name := "Net", product := .framework })]

/-- The application leads into a loop of two of the libraries, and the third library does not. -/
def tangled : Workspace where
  -- The loop is not at the application itself.
  projects := .ofList [(⟨"/A"⟩, tangledProject)]
  dependencies := .ofList [(.target "App" ⟨"/A"⟩, .ofList [.target "Net" ⟨"/A"⟩]),
    (.target "Net" ⟨"/A"⟩, .ofList [.target "Core" ⟨"/A"⟩]),
    (.target "Core" ⟨"/A"⟩, .ofList [.target "Net" ⟨"/A"⟩])]

/-- The references that show the loop. -/
def tangle : List TargetId :=
  -- The smallest one comes first and is repeated.
  ["Core", "Net", "Core"].map (TargetId.mk ⟨"/A"⟩)

/-- A library together with names of which one is excluded and one is nowhere. -/
def misnamed : Selection where
  -- One name is good, so the two others are all that is told.
  included := .ofList ["Gone", "Kit", "Core"]
  excluded := .ofList ["Core"]

/-- A test plan. -/
def smoke : Selection where
  testPlan := some "Smoke"

/-- The library that leads to no loop. -/
def library : Selection where
  included := .ofList ["Kit"]

end Sample

/-- A plan that is nowhere, names that are nowhere or excluded, and a loop are what a focus fails
for; it does not mind a loop that its selection does not reach. -/
theorem Selection.verdict_of_sample :
    ((StandardPass.focus Sample.smoke).run Sample.tangled {}).result =
      .error (.testPlanNotFound "Smoke") ∧
    ((StandardPass.focus Sample.misnamed).run Sample.tangled {}).result =
      .error (.targetsNotFound ["Core", "Gone"]) ∧
    ((StandardPass.focus Sample.application).run Sample.tangled {}).result =
      .error (.cyclicDependency Sample.tangle) ∧
    Sample.application.ShowsLoop Sample.tangled Sample.tangle ∧
    ∃ o, ((StandardPass.focus Sample.library).run Sample.tangled {}).result = .ok o := by
  -- Loops are met by following a search, and refusals are evaluated.
  have met : Sample.tangled.followed (Sample.application.sources Sample.tangled) 20 =
      some (.error (["Core", "Net", "Core"].filterMap fun name =>
        Sample.tangled.ownedTarget? ⟨⟨"/A"⟩, name⟩)) := rfl
  have looped : ((StandardPass.focus Sample.application).run Sample.tangled {}).result =
      .error (.cyclicDependency Sample.tangle) := by
    refine result_focus_eq_loop.mpr ⟨rfl, ?_⟩
    rw [Workspace.closure, DepthFirst.sort_of_within met]
    rfl
  have kit : Sample.tangled.followed (Sample.library.sources Sample.tangled) 20 =
      some (.ok (["Kit"].filterMap fun name =>
        Sample.tangled.ownedTarget? ⟨⟨"/A"⟩, name⟩)) := rfl
  refine ⟨?_, ?_, looped, (verdict_of_focus _ _ _).shown _ looped, _,
    StandardPass.run_focus_eq_ok.mpr ⟨_, _, focus_of_followed rfl kit, rfl⟩⟩
  · exact ((verdict_of_focus Sample.smoke Sample.tangled {}).testPlan _).mpr
      ⟨rfl, rfl, by decide⟩
  · exact StandardPass.run_focus_eq_error.mpr (focus_eq_error.mpr (.inl rfl))

end BuildGraph
