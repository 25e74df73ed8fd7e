import BuildGraph.Proofs.Scheduling
import BuildGraph.Proofs.Spelling.Queries
import BuildGraph.Proofs.Substitution

/-! Every pass makes things that are alike of workspaces that are, or fails alike. -/

namespace BuildGraph

open OwnedTarget

namespace PassError

/-- Errors of one kind that carry the same, however their paths are spelled. -/
inductive Counterpart : PassError → PassError → Prop
  -- Names are the same to the letter, and paths may differ in spelling.
  | targetsNotFound (names : List String) :
    Counterpart (.targetsNotFound names) (.targetsNotFound names)
  | testPlanNotFound (name : String) : Counterpart (.testPlanNotFound name) (.testPlanNotFound name)
  | cyclicDependency {loop loop' : List TargetId} (same : List.Forall₂ Alike loop loop') :
    Counterpart (.cyclicDependency loop) (.cyclicDependency loop')
  /-- What lies behind the failure of a probe may well differ. -/
  | artifactProbe {path path' : Path} (cause cause' : String) (same : Alike path path') :
    Counterpart (.artifactProbe path cause) (.artifactProbe path' cause')
  | stageOutOfOrder (pass : String) (stage previous : Stage) :
    Counterpart (.stageOutOfOrder pass stage previous) (.stageOutOfOrder pass stage previous)

/-- Every error is a counterpart of itself. -/
theorem Counterpart.refl (e : PassError) : e.Counterpart e := by
  -- Names stand for themselves, and paths are alike to themselves.
  cases e with
  | targetsNotFound names => exact .targetsNotFound names
  | testPlanNotFound name => exact .testPlanNotFound name
  | cyclicDependency loop =>
    exact .cyclicDependency (List.forall₂_same.mpr fun id _ => id.alike_refl)
  | artifactProbe path cause => exact .artifactProbe cause cause path.alike_refl
  | stageOutOfOrder pass stage previous => exact .stageOutOfOrder pass stage previous

end PassError

section Wiring

variable {id id' : TargetId} {b b' : ForeignBuild} {d d' : Dependencies} {node node' : Dependency}

/-- The phases that run foreign builds that are alike are alike. -/
theorem ForeignBuild.alike_phase (same : Alike b b') (name : String) :
    Alike (b.phase name) (b'.phase name) := by
  -- Inputs without a path drop out on both sides together.
  obtain ⟨script, inputs, output⟩ := ForeignBuild.alike_iff.mp same
  obtain ⟨place, _⟩ := ForeignArtifact.alike_iff.mp output
  have read := List.rel_filterMap (R := Alike) (P := Alike)
    (fun _ _ => ForeignInput.rel_declaredPath?) (alike_list_iff.mp inputs)
  exact BuildPhase.alike_iff.mpr ⟨rfl, rfl, script, alike_list_iff.mpr read,
    alike_list_iff.mpr (.cons place .nil)⟩

/-- Targets that are alike stay so when they are made to run foreign builds that are alike. -/
theorem Target.alike_aggregated {t t' : Target} (same : Alike t t') (name : String)
    (builds : Alike b b') : Alike (t.aggregated name b) (t'.aggregated name b') := by
  obtain ⟨names, _, pruned, phases, tags, build⟩ := Target.alike_iff.mp same
  -- The phases of other names are kept on both sides.
  have kept := forall₂_filter (p := fun phase => decide (phase.name ≠ phaseName name))
    (q := fun phase => decide (phase.name ≠ phaseName name))
    (fun _ _ pair => by rw [(BuildPhase.alike_iff.mp pair).1]) (alike_list_iff.mp phases)
  refine Target.alike_iff.mpr ⟨names, rfl, pruned, ?_, ?_, build⟩
  · exact alike_list_iff.mpr (.cons (ForeignBuild.alike_phase builds name) kept)
  · exact congrArg (SortedSet.insert · aggregateTag) tags

/-- The outputs of foreign builds that are alike are alike. -/
theorem ForeignBuild.alike_outputNode (same : Alike b b') (ids : Alike id id') :
    Alike (b.outputNode id) (b'.outputNode id') := by
  -- The kind of the node is fixed, and each part comes from parts that are alike.
  obtain ⟨paths, names⟩ := TargetId.alike_iff_parts.mp ids
  obtain ⟨_, _, output⟩ := ForeignBuild.alike_iff.mp same
  exact Dependency.alike_iff.mpr ⟨rfl, names, paths, (ForeignArtifact.alike_iff.mp output).2⟩

/-- Sets of nodes that are alike stay so when nodes that are alike are added. -/
theorem Dependencies.alike_insert {nodes nodes' : SortedSet Dependency} (same : Alike nodes nodes')
    (also : Alike node node') : Alike (nodes.insert node) (nodes'.insert node') :=
  -- Placing compares only, and what is alike compares equal.
  SortedSet.alike_iff.mpr (SortedSet.forall₂_place alike_agree (SortedSet.alike_iff.mp same) also)

/-- Relations that are alike stay so when outputs that are alike are linked. -/
theorem Dependencies.alike_link (same : Alike d d') (ids : Alike id id')
    (outputs : Alike node node') : Alike (d.link id node) (d'.link id' node') := by
  -- The outputs become nodes on both sides, with no dependencies unless they have some.
  have added : Alike (d.add node []) (d'.add node' []) := by
    refine SortedMap.alike_alter same outputs fun held held' pair => ?_
    cases pair with
    | none => exact SortedSet.alike_iff.mpr .nil
    | some nodes => exact nodes
  refine SortedMap.alike_map added fun nodes nodes' pair => ?_
  -- The same sets have a node of the target in them.
  have depends : nodes.toList.any (Dependency.isTarget id) =
      nodes'.toList.any (Dependency.isTarget id') :=
    any_eq_of_forall₂ (fun _ _ => Dependency.isTarget_alike ids) (SortedSet.alike_iff.mp pair)
  rw [depends]
  split
  · exact Dependencies.alike_insert pair outputs
  · exact pair

namespace Workspace

variable {w w' : Workspace}

/-- Workspaces that are alike stay so when foreign builds that are alike are wired. -/
theorem alike_wire (same : Alike w w') (ids : Alike id id') (builds : Alike b b') :
    Alike (w.wire id b) (w'.wire id' b') := by
  have names := (TargetId.alike_iff_parts.mp ids).2
  -- The target is changed first, and then its output is linked.
  have modified := alike_modifyTarget same ids (f := fun t => t.aggregated id.name b)
    (g := fun t => t.aggregated id'.name b')
    (fun t t' pair => by rw [names]; exact Target.alike_aggregated pair id'.name builds)
  refine alike_iff.mpr ⟨(alike_iff.mp modified).1, ?_⟩
  exact Dependencies.alike_link (alike_iff.mp same).2 ids (ForeignBuild.alike_outputNode builds ids)

/-- The foreign builds of workspaces that are alike are alike, in their order. -/
theorem forall₂_foreignBuilds (tidy : w.Tidy) (same : Alike w w') :
    List.Forall₂ Alike w.foreignBuilds w'.foreignBuilds := by
  -- The same targets have one, since it cannot be alike to none.
  have kept := forall₂_filter (p := fun t : OwnedTarget => t.target.foreignBuild.isSome)
    (q := fun t : OwnedTarget => t.target.foreignBuild.isSome)
    (fun _ _ pair => isSome_eq_of_rel pair.foreignBuild) (forall₂_allTargets tidy same)
  refine List.rel_filterMap (fun t u pair => ?_) kept
  exact rel_optionMap pair.foreignBuild fun _ _ builds => alike_pair_iff.mpr ⟨pair.id, builds⟩

/-- Workspaces that are alike stay so when they are wired. -/
theorem alike_wired (tidy : w.Tidy) (same : Alike w w') : Alike w.wired w'.wired := by
  -- One build after another is wired on both sides.
  refine List.rel_foldl (R := Alike) (P := Alike) (fun v v' before e e' pair => ?_) same
    (forall₂_foreignBuilds tidy same)
  obtain ⟨ids, builds⟩ := alike_pair_iff.mp pair
  exact alike_wire before ids builds

end Workspace

end Wiring

section Focus

variable {w w' : Workspace} {l l' : Ledger}

/-- Ledgers that are alike stay so when targets that are alike are requested. -/
theorem Ledger.alike_recordRequested (same : Alike l l') {ids ids' : List TargetId}
    (requested : List.Forall₂ Alike ids ids') :
    Alike (l.recordRequested ids) (l'.recordRequested ids') := by
  -- The replacements are not touched, and the requests are collected into a set one by one.
  refine Ledger.alike_iff.mpr ⟨(Ledger.alike_iff.mp same).1, SortedSet.alike_iff.mpr ?_⟩
  exact SortedSet.forall₂_collect alike_agree requested

namespace Selection

variable (s : Selection) (tidy : w.Tidy) (same : Alike w w')

include tidy same

/-- The same targets are selected in workspaces that are alike. -/
theorem forall₂_sources :
    List.Forall₂ Counterpart (s.sources w).toList (s.sources w').toList := by
  -- The filter admits counterparts together, and collecting them only compares.
  refine SortedSet.forall₂_collect Counterpart.agree ?_
  exact forall₂_filter (fun _ _ pair => Workspace.admits_alike same s.filter pair)
    (Workspace.forall₂_allTargets tidy same)

/-- The same names are missing in workspaces that are alike. -/
theorem missing_alike : s.missing w = s.missing w' := by
  -- What is missing is told from the names alone, which counterparts share to the letter.
  have names : (s.sources w).toList.map OwnedTarget.name =
      (s.sources w').toList.map OwnedTarget.name := by
    have pairs := List.rel_map (P := Eq) (fun _ _ pair => Counterpart.name pair)
      (s.forall₂_sources tidy same)
    rwa [List.forall₂_eq_eq_eq] at pairs
  rw [missing, missing, names]

/-- A selection is refused for the same reason in workspaces that are alike. -/
theorem refusal?_alike : s.refusal? w = s.refusal? w' := by
  -- Names and the presence of plans decide, and neither depends on how paths are spelled.
  have plans : (fun plan => (w.testPlan? plan).isNone) =
      fun plan => (w'.testPlan? plan).isNone := by
    funext plan
    rw [← Option.not_isSome, ← Option.not_isSome, Workspace.isSome_testPlan?_alike same]
  rw [refusal?, refusal?, plans, s.missing_alike tidy same]

/-- The same targets are requested in workspaces that are alike. -/
theorem forall₂_requested : List.Forall₂ Alike (s.requested w) (s.requested w') := by
  -- The flag of the selection is the same on both sides.
  rw [requested, requested]
  split
  · exact forall₂_ids (s.forall₂_sources tidy same)
  · exact .nil

/-- The closure of a selection is alike in workspaces that are, or else the errors are. -/
theorem closure_alike : Matching PassError.Counterpart
    (fun needed needed' => List.Forall₂ Counterpart needed.toList needed'.toList)
    (s.closure w) (s.closure w') := by
  -- A refusal comes first, and is the same on both sides.
  rw [closure, closure, s.refusal?_alike tidy same]
  cases s.refusal? w' with
  | none =>
    exact (Workspace.closure_alike same (s.forall₂_sources tidy same)).mapError
      fun _ _ => .cyclicDependency
  | some e => exact .error (.refl e)

omit tidy in
/-- Focusing on counterparts keeps workspaces alike. -/
theorem alike_focusOn {needed needed' : SortedSet OwnedTarget}
    (pairs : List.Forall₂ Counterpart needed.toList needed'.toList) :
    Alike (focusOn w needed) (focusOn w' needed') := by
  refine Workspace.alike_mapTargets same fun path path' paths t t' pair => ?_
  obtain ⟨names, product, _, phases, tags, build⟩ := Target.alike_iff.mp pair
  -- Both sides keep the same targets, since these have identities that are alike.
  have kept := contains_ids_alike pairs paths names
  exact Target.alike_iff.mpr ⟨names, product, congrArg not kept, phases, tags, build⟩

/-- A focus makes workspaces and ledgers that are alike of such, or fails alike. -/
theorem focus_alike (ledgers : Alike l l') :
    Matching PassError.Counterpart Alike (s.focus w l) (s.focus w' l') := by
  -- The closures fail as counterparts or give counterparts; the rest of the focus cannot fail.
  have requested := Ledger.alike_recordRequested ledgers (s.forall₂_requested tidy same)
  refine (s.closure_alike tidy same).bind fun needed needed' pairs => .ok ?_
  exact alike_pair_iff.mpr ⟨alike_focusOn same pairs, requested⟩

end Selection

end Focus

section Substitution

variable {w w' : Workspace} {l l' : Ledger} {r r' : Replacement}

/-- Artefacts that are alike are taken for nodes that are. -/
theorem Prebuilt.alike_dependency {a a' : Prebuilt} (same : Alike a a') :
    Alike a.dependency a'.dependency := by
  -- The shape decides the kind of node, and it is the same on both sides.
  obtain ⟨paths, shape, linking⟩ := Prebuilt.alike_iff.mp same
  rw [dependency, dependency, shape]
  split <;> exact Dependency.alike_iff.mpr ⟨rfl, rfl, paths, linking⟩

/-- Relations that are alike stay so when they are redirected to artefacts that are alike. -/
theorem Dependencies.alike_redirect {d d' : Dependencies} (same : Alike d d') {id id' : TargetId}
    (ids : Alike id id') {node node' : Dependency} (artifacts : Alike node node') :
    Alike (d.redirect id node) (d'.redirect id' node') := by
  refine SortedMap.alike_map same fun nodes nodes' pair => ?_
  have all := SortedSet.alike_iff.mp pair
  -- The same nodes are dropped on both sides.
  have others : List.Forall₂ Alike
      (nodes.filter fun node => !node.isTarget id && !node.isOutputOf id).toList
      (nodes'.filter fun node => !node.isTarget id' && !node.isOutputOf id').toList :=
    forall₂_filter (fun _ _ also => by
      rw [Dependency.isTarget_alike ids also, Dependency.isOutputOf_alike ids also]) all
  dsimp only
  generalize (nodes.filter fun node => !node.isTarget id && !node.isOutputOf id) = kept
    at others ⊢
  generalize (nodes'.filter fun node => !node.isTarget id' && !node.isOutputOf id') = kept'
    at others ⊢
  have sizes : kept.size = nodes.size ↔ kept'.size = nodes'.size := by
    rw [SortedSet.size, SortedSet.size, SortedSet.size, SortedSet.size, others.length_eq,
      all.length_eq]
  by_cases nothing : kept'.size = nodes'.size
  · rwa [if_pos (sizes.mpr nothing), if_pos nothing]
  · rw [if_neg (mt sizes.mp nothing), if_neg nothing]
    exact Dependencies.alike_insert (SortedSet.alike_iff.mpr others) artifacts

/-- Pruning targets that are alike keeps them alike. -/
theorem Target.alike_prune {t t' : Target} (same : Alike t t') :
    Alike { t with pruned := true } { t' with pruned := true } := by
  -- Only the flag changes, and it becomes the same.
  obtain ⟨names, product, _, rest⟩ := Target.alike_iff.mp same
  exact Target.alike_iff.mpr ⟨names, product, rfl, rest⟩

/-- Ledgers that are alike stay so when replacements that are alike are noted. -/
theorem Ledger.alike_recordReplacement (same : Alike l l') (also : Alike r r') :
    Alike (l.recordReplacement r) (l'.recordReplacement r') := by
  obtain ⟨replacements, requested⟩ := Ledger.alike_iff.mp same
  obtain ⟨targets, _⟩ := Replacement.alike_iff.mp also
  refine Ledger.alike_iff.mpr ⟨?_, requested⟩
  -- They are filed under the same name.
  refine SortedMap.alike_alter replacements (TargetId.alike_name targets) fun held held' pair => ?_
  have olds : List.Forall₂ Alike (held.getD []) (held'.getD []) := by
    cases pair with
    | none => exact .nil
    | some olds => exact alike_list_iff.mp olds
  -- Earlier replacements of the same target are dropped on both sides.
  have kept := forall₂_filter (p := fun old : Replacement => old.target != r.target)
    (q := fun old : Replacement => old.target != r'.target)
    (fun _ _ pair => by rw [bne, bne, TargetId.beq_alike (Replacement.alike_iff.mp pair).1 targets])
    olds
  exact alike_list_iff.mpr (List.rel_append kept (.cons also .nil))

namespace Workspace

/-- The live targets of workspaces that are alike are counterparts. -/
theorem forall₂_liveTargets (tidy : w.Tidy) (same : Alike w w') :
    List.Forall₂ Counterpart w.liveTargets.toList w'.liveTargets.toList :=
  -- Counterparts are pruned together.
  forall₂_filter (fun _ _ pair => by rw [pair.pruned]) (forall₂_allTargets tidy same)

/-- The same targets can be replaced in workspaces that are alike. -/
theorem forall₂_replaceable (tidy : w.Tidy) (same : Alike w w') (table : ArtifactTable) :
    List.Forall₂ Alike (w.replaceable table) (w'.replaceable table) := by
  -- The table is asked for names, which counterparts share, so both get the same artefact or none.
  refine List.rel_filterMap (fun t u pair => ?_) (forall₂_liveTargets tidy same)
  rw [pair.name]
  cases table.get? u.name with
  | none => exact .none
  | some a =>
    have artifacts : Alike a a := Prebuilt.alike_iff.mpr ⟨a.path.alike_refl, rfl, rfl⟩
    exact .some (Replacement.alike_iff.mpr ⟨pair.id, artifacts⟩)

/-- The same targets are live roots in workspaces that are alike. -/
theorem forall₂_liveRoots (tidy : w.Tidy) (same : Alike w w') (ledgers : Alike l l') :
    List.Forall₂ Alike (w.liveRoots l).toList (w'.liveRoots l').toList := by
  have live := forall₂_liveTargets tidy same
  -- The same targets are depended on, and the same ones are requested.
  have consumed : List.Forall₂ Alike
      (w.liveTargets.toList.flatMap fun t => (w.directDependencies t.id).toList.map OwnedTarget.id)
      (w'.liveTargets.toList.flatMap fun t =>
        (w'.directDependencies t.id).toList.map OwnedTarget.id) :=
    List.rel_flatMap live fun _ _ pair => forall₂_ids (forall₂_directDependencies same pair.id)
  have requested : ∀ id id' : TargetId, Alike id id' → l.isRequested id = l'.isRequested id' :=
    fun _ _ ids => SortedSet.contains_eq alike_agree
      (SortedSet.alike_iff.mp (Ledger.alike_iff.mp ledgers).2) ids
  refine SortedSet.forall₂_collect alike_agree
    (forall₂_filter (fun id id' ids => ?_) (forall₂_ids live))
  rw [contains_collect_alike consumed ids, requested id id' ids]

/-- Workspaces that are alike stay so when targets that are alike are replaced. -/
theorem alike_replace (same : Alike w w') (also : Alike r r') :
    Alike (w.replace r) (w'.replace r') := by
  -- First the edges, then the flag of the target: each of the two keeps workspaces alike.
  obtain ⟨targets, artifacts⟩ := Replacement.alike_iff.mp also
  obtain ⟨projects, dependencies⟩ := alike_iff.mp same
  have redirected : Alike (w.redirected r) (w'.redirected r') :=
    alike_iff.mpr ⟨projects, Dependencies.alike_redirect dependencies targets
      (Prebuilt.alike_dependency artifacts)⟩
  exact alike_modifyTarget redirected targets fun _ _ => Target.alike_prune

/-- Keeping counterparts only keeps workspaces alike. -/
theorem alike_keepOnly (same : Alike w w') {needed needed' : SortedSet OwnedTarget}
    (pairs : List.Forall₂ Counterpart needed.toList needed'.toList) :
    Alike (w.keepOnly needed) (w'.keepOnly needed') := by
  refine alike_mapTargets same fun path path' paths t t' pair => ?_
  -- Both sides keep the same targets, since these have identities that are alike.
  rw [contains_ids_alike pairs paths (Target.alike_iff.mp pair).1]
  split
  · exact pair
  · exact Target.alike_prune pair

/-- The live targets under roots that are alike are counterparts. -/
theorem forall₂_liveSources (same : Alike w w') {roots roots' : SortedSet TargetId}
    (start : List.Forall₂ Alike roots.toList roots'.toList) :
    List.Forall₂ Counterpart (w.liveSources roots).toList (w'.liveSources roots').toList := by
  -- The roots find counterparts, of which the live ones are kept.
  have found := List.rel_filterMap (R := Alike) (P := Counterpart)
    (fun _ _ ids => rel_ownedTarget? same ids) start
  exact SortedSet.forall₂_collect Counterpart.agree
    (forall₂_filter (fun _ _ pair => by rw [pair.pruned]) found)

/-- What pruning leaves is alike in workspaces that are, or else the errors are. -/
theorem pruneUnreachable_alike (same : Alike w w') {roots roots' : SortedSet TargetId}
    (start : List.Forall₂ Alike roots.toList roots'.toList) :
    Matching PassError.Counterpart Alike (w.pruneUnreachable roots)
      (w'.pruneUnreachable roots') := by
  -- Only the closure of the live roots can fail.
  have closed := closure_alike same (forall₂_liveSources same start)
  refine (closed.mapError fun _ _ => .cyclicDependency).bind fun needed needed' pairs => ?_
  exact .ok (alike_keepOnly same pairs)

/-- A substitution makes workspaces and ledgers that are alike of such, or fails alike. -/
theorem substitute_alike (tidy : w.Tidy) (same : Alike w w') (ledgers : Alike l l')
    (table : ArtifactTable) :
    Matching PassError.Counterpart Alike (w.substitute table l) (w'.substitute table l') := by
  have replacements := forall₂_replaceable tidy same table
  rw [substitute, substitute]
  generalize w.replaceable table = rs at replacements ⊢
  generalize w'.replaceable table = rs' at replacements ⊢
  cases replacements with
  | nil => exact .ok (alike_pair_iff.mpr ⟨same, ledgers⟩)
  | cons first rest =>
    have all := List.Forall₂.cons first rest
    -- Both sides replace the same targets one by one, and then prune from the same roots.
    have replaced := List.rel_foldl (R := Alike) (P := Alike)
      (fun _ _ before _ _ pair => alike_replace before pair) same all
    have noted := List.rel_foldl (R := Alike) (P := Alike)
      (fun _ _ before _ _ pair => Ledger.alike_recordReplacement before pair) ledgers all
    have roots := forall₂_liveRoots tidy same ledgers
    refine (pruneUnreachable_alike replaced roots).bind fun v v' pruned => ?_
    exact .ok (alike_pair_iff.mpr ⟨pruned, noted⟩)

end Workspace

end Substitution

section Scheduling

variable {w w' : Workspace} {l l' : Ledger} {probe : Probe}

/-- Ledgers that are alike note the same targets to be replaced. -/
theorem Ledger.isReplaced_alike (same : Alike l l') {id id' : TargetId} (ids : Alike id id') :
    l.isReplaced id = l'.isReplaced id' := by
  obtain ⟨replacements, _⟩ := Ledger.alike_iff.mp same
  -- Replacements are looked up by the name, and then by the whole identity.
  have filed := SortedMap.rel_get? replacements (TargetId.alike_name ids)
  refine isSome_eq_of_rel (R := Alike) (rel_optionBind filed fun held held' pair => ?_)
  exact rel_find? (R := Alike)
    (fun _ _ also => TargetId.beq_alike (Replacement.alike_iff.mp also).1 ids)
    (alike_list_iff.mp pair)

namespace Probe

/-- A probe tells the same of all spellings of a path. -/
def Consistent (probe : Probe) : Prop :=
  -- Where it cannot tell, the causes may differ.
  ∀ path path', Alike path path' → ∀ present, probe path = .ok present ↔ probe path' = .ok present

variable {build build' : Path × ForeignBuild}

/-- Builds that are alike leave their artefacts in places that are. -/
theorem alike_place (same : Alike build build') :
    Alike (place build.1 build.2) (place build'.1 build'.2) := by
  -- The place joins the path of the project with that of the output.
  obtain ⟨paths, builds⟩ := alike_pair_iff.mp same
  have output := (ForeignBuild.alike_iff.mp builds).2.2
  exact Path.alike_join paths (ForeignArtifact.alike_iff.mp output).1

/-- A consistent probe misses the artefacts of builds that are alike together. -/
theorem Consistent.misses_eq (consistent : probe.Consistent) (same : Alike build build') :
    probe.misses build = probe.misses build' := by
  -- A build is missing when the answer at its place is a clear no, and a consistent probe answers
  -- alike for places that are alike.
  have answers := consistent _ _ (alike_place same)
  have missing : ∀ build, probe.misses build = true ↔
      probe (place build.1 build.2) = .ok false := by
    intro build
    rw [misses]
    split <;> rename_i answer <;> simp [answer]
  rw [Bool.eq_iff_iff, missing, missing, answers]

/-- A consistent probe is refused for builds that are alike together. -/
theorem Consistent.rel_refusal? (consistent : probe.Consistent) (same : Alike build build') :
    Option.Rel PassError.Counterpart (probe.refusal? build) (probe.refusal? build') := by
  have places := alike_place same
  have answers := consistent _ _ places
  rw [refusal?, refusal?]
  cases here : probe (place build.1 build.2) with
  | ok present =>
    rw [(answers present).mp here]
    exact .none
  | error cause =>
    cases there : probe (place build'.1 build'.2) with
    | ok present =>
      -- Then the probe would tell on both sides.
      rw [(answers present).mpr there] at here
      cases here
    | error cause' => exact .some (.artifactProbe cause cause' places)

end Probe

namespace Workspace

/-- Two commands run the same script for the same target, which is one of either workspace. -/
def SameCommand (w w' : Workspace) (command command' : SideEffect) : Prop :=
  -- The commands may spell the directory differently, and the script must be the same.
  ∃ t ∈ w.owned, ∃ t' ∈ w'.owned, (t.id == t'.id) = true ∧ ∃ script,
    (t.target.foreignBuild.map ForeignBuild.script = some script ∧
      command = buildCommand t.path script) ∧
    (t'.target.foreignBuild.map ForeignBuild.script = some script ∧
      command' = buildCommand t'.path script)

/-- Two builds that are alike, and whose commands run for the same target. -/
def SameBuild (w w' : Workspace) (build build' : Path × ForeignBuild) : Prop :=
  -- The two parts are kept together along the schedule.
  Alike build build' ∧
    w.SameCommand w' (buildCommand build.1 build.2.script) (buildCommand build'.1 build'.2.script)

/-- The active builds of workspaces that are alike are those of the same targets. -/
theorem forall₂_activeBuilds (tidy : w.Tidy) (same : Alike w w') (ledgers : Alike l l') :
    List.Forall₂ (w.SameBuild w') (w.activeBuilds l) (w'.activeBuilds l') := by
  rw [activeBuilds_eq, activeBuilds_eq]
  refine List.rel_filterMap (fun t u pair => ?_) (forall₂_and_mem (forall₂_allTargets tidy same))
  obtain ⟨pair, member, member'⟩ := pair
  have replaced := Ledger.isReplaced_alike ledgers pair.id
  simp only [Ledger.isReplaced, Option.isSome_eq_isSome] at replaced
  -- The same targets are pruned, the same are replaced, and the same have foreign builds.
  simp only [activeBuild?, pair.pruned, ← Option.isNone_iff_eq_none, replaced]
  split
  · refine rel_optionMap (rel_and_eq pair.foreignBuild) fun b b' carried => ?_
    obtain ⟨also, here, there⟩ := carried
    have scripts := (ForeignBuild.alike_iff.mp also).1
    have paths := (TargetId.alike_iff_parts.mp pair.id).1
    refine ⟨alike_pair_iff.mpr ⟨paths, also⟩, t, SortedSet.mem_of_mem_collect member, u,
      SortedSet.mem_of_mem_collect member', pair.id, b.script, ⟨?_, rfl⟩, ?_, ?_⟩
    · rw [here, Option.map_some]
    · rw [there, Option.map_some, scripts]
    · rw [scripts]
  · exact .none

/-- A consistent probe makes for commands for the same targets in workspaces that are alike, or
else the errors are. -/
theorem schedule_alike (tidy : w.Tidy) (same : Alike w w') (ledgers : Alike l l')
    (consistent : probe.Consistent) :
    Matching PassError.Counterpart (List.Forall₂ (w.SameCommand w'))
      (w.schedule l probe).result (w'.schedule l' probe).result := by
  have builds := forall₂_activeBuilds tidy same ledgers
  have refused := rel_findSome? (fun _ _ pair => consistent.rel_refusal? pair.1) builds
  have missed := forall₂_filter (fun _ _ pair => consistent.misses_eq pair.1) builds
  rw [schedule, schedule, result_commands, result_commands]
  -- The first refusal, if there is one, is for builds that are alike.
  generalize (w.activeBuilds l).findSome? probe.refusal? = x at refused ⊢
  generalize (w'.activeBuilds l').findSome? probe.refusal? = y at refused ⊢
  cases refused with
  | none => exact .ok (List.rel_map (fun _ _ pair => pair.2) missed)
  | some also => exact .error also

end Workspace

end Scheduling

end BuildGraph
