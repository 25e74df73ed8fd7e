import BuildGraph.Proofs.Liveness
import BuildGraph.Substitution

/-! Replacing targets prunes them and drops the edges that name them, and then everything is pruned
that no live root leads to any more. -/

namespace BuildGraph

open Relation

/-- No artefact that stands in for a target is a target itself. -/
theorem Prebuilt.targetId?_dependency (a : Prebuilt) : a.dependency.targetId? = none := by
  -- Frameworks and libraries are nodes of kinds of their own.
  unfold dependency
  split <;> rfl

/-- Redirecting to something that is no target drops the edges to one target, and no other ones. -/
theorem Dependencies.targets_redirect (d : Dependencies) (id k : TargetId) {artifact : Dependency}
    (passed : artifact.targetId? = none) :
    (((d.redirect id artifact).get? k.toDependency).getD {}).toList.filterMap
        Dependency.targetId? =
      (((d.get? k.toDependency).getD {}).toList.filterMap Dependency.targetId?).filter
        fun edge => edge.identity ≠ id.identity := by
  -- Of the nodes that name targets, exactly those are dropped that name this one.
  have others : ∀ nodes : List Dependency,
      (nodes.filter fun node => !node.isTarget id && !node.isOutputOf id).filterMap
          Dependency.targetId? =
        (nodes.filterMap Dependency.targetId?).filter fun edge => edge.identity ≠ id.identity := by
    intro nodes
    induction nodes with
    | nil => rfl
    | cons node rest ih =>
      cases named : node.targetId? with
      | none =>
        by_cases kept : (!node.isTarget id && !node.isOutputOf id) <;> simp [kept, named, ih]
      | some edge =>
        -- A node that names a target is not an output.
        have output : node.isOutputOf id = false := by
          cases node <;> simp_all [Dependency.targetId?, Dependency.isOutputOf]
        have target : node.isTarget id = true ↔ edge.identity = id.identity := by
          simp [Dependency.isTarget_iff, named]
        by_cases same : edge.identity = id.identity
        · simp [output, target.mpr same, named, same, ih]
        · have other : node.isTarget id = false := Bool.eq_false_iff.mpr (mt target.mp same)
          simp [output, other, named, same, ih]
  rw [redirect, SortedMap.get?_map]
  cases d.get? k.toDependency with
  | none => rfl
  | some nodes =>
    simp only [Option.map_some, Option.getD_some]
    rw [← others]
    split
    · -- Where nothing is dropped, the nodes stay as they are.
      rename_i all
      have kept : nodes.toList.filter (fun node => !node.isTarget id && !node.isOutputOf id) =
          nodes.toList := List.filter_eq_self.mpr (List.length_filter_eq_length_iff.mp all)
      rw [kept]
    · exact SortedSet.filterMap_place passed _

namespace Workspace

variable {w w' : Workspace} {l l' : Ledger}

/-- The workspace in which consumers of a target depend on its artefact instead. -/
def redirected (w : Workspace) (r : Replacement) : Workspace :=
  -- The target itself is not touched.
  { w with dependencies := w.dependencies.redirect r.target r.artifact.dependency }

/-- A target is replaced by redirecting its consumers and pruning it. -/
theorem replace_eq (w : Workspace) (r : Replacement) : w.replace r =
    (w.redirected r).modifyTarget r.target fun t => { t with pruned := true } :=
  -- It is how replacing is defined.
  rfl

/-- The targets that a list of replacements is about. -/
def replacedIn (rs : List Replacement) : List Identity :=
  -- Identities are used, so that spellings do not matter.
  rs.map fun r => r.target.identity

/-- Replacing a target keeps the outline. -/
theorem outline_replace (w : Workspace) (r : Replacement) : (w.replace r).outline = w.outline := by
  -- Relations are no part of outlines, and neither is whether a target is pruned.
  rw [replace_eq]
  refine (w.redirected r).outline_modifyTarget ?_ r.target
  intro t
  rfl

/-- Replacing a target drops the edges to it. -/
theorem targetEdges_replace (w : Workspace) (r : Replacement) (k : TargetId) :
    (w.replace r).targetEdges k =
      (w.targetEdges k).filter fun edge => edge.identity ≠ r.target.identity :=
  -- The artefact that takes the place of the target is no target.
  Dependencies.targets_redirect w.dependencies r.target k r.artifact.targetId?_dependency

/-- Replacing a target prunes it, and no other one. -/
theorem live_replace (w : Workspace) (r : Replacement) (k : TargetId) :
    (w.replace r).Live k ↔ w.Live k ∧ r.target.identity ≠ k.identity := by
  -- The projects are the same before the target is pruned.
  have before : (w.redirected r).target? k = w.target? k := rfl
  rw [replace_eq, live_modifyTarget, Live, before]
  by_cases same : r.target.identity = k.identity <;> simp [same]

/-- Replacing several targets keeps the outline. -/
theorem outline_replaceAll (w : Workspace) (rs : List Replacement) :
    (rs.foldl replace w).outline = w.outline := by
  -- The outline is kept each time.
  induction rs generalizing w with
  | nil => rfl
  | cons r rest ih => rw [List.foldl_cons, ih, outline_replace]

/-- Replacing several targets drops the edges to them. -/
theorem targetEdges_replaceAll (w : Workspace) (rs : List Replacement) (k : TargetId) :
    (rs.foldl replace w).targetEdges k =
      (w.targetEdges k).filter fun edge => edge.identity ∉ replacedIn rs := by
  -- Edges are dropped for one target after another.
  induction rs generalizing w with
  | nil =>
    have all : ∀ edge ∈ w.targetEdges k, decide (edge.identity ∉ replacedIn []) = true := by
      simp [replacedIn]
    exact (List.filter_eq_self.mpr all).symm
  | cons r rest ih =>
    rw [List.foldl_cons, ih, targetEdges_replace, List.filter_filter]
    refine List.filter_congr fun edge _ => ?_
    simp only [replacedIn, List.map_cons, List.mem_cons, not_or, Bool.decide_and]
    exact Bool.and_comm _ _

/-- Replacing several targets prunes them, and no other ones. -/
theorem live_replaceAll (w : Workspace) (rs : List Replacement) (k : TargetId) :
    (rs.foldl replace w).Live k ↔ w.Live k ∧ k.identity ∉ replacedIn rs := by
  -- Targets are pruned one after another.
  induction rs generalizing w with
  | nil => simp [replacedIn]
  | cons r rest ih =>
    rw [List.foldl_cons, ih, live_replace, and_assoc]
    refine and_congr_right fun _ => ?_
    simp [replacedIn, not_or, eq_comm]

/-- Noting several replacements makes their targets replaced ones, and no others. -/
theorem isReplaced_recordAll (l : Ledger) (rs : List Replacement) (id : TargetId) :
    (rs.foldl Ledger.recordReplacement l).isReplaced id = true ↔
      l.isReplaced id = true ∨ id.identity ∈ replacedIn rs := by
  -- Replacements are noted one after another.
  induction rs generalizing l with
  | nil => simp [replacedIn]
  | cons r rest ih =>
    rw [List.foldl_cons, ih, Ledger.isReplaced_recordReplacement, or_assoc]
    refine or_congr_right ?_
    simp [replacedIn, eq_comm]

/-- Noting several replacements leaves the requests alone. -/
theorem requested_recordAll (l : Ledger) (rs : List Replacement) :
    (rs.foldl Ledger.recordReplacement l).requested = l.requested := by
  -- The induction is on the replacements, none of which is a request.
  induction rs generalizing l with
  | nil => rfl
  | cons r rest ih => exact ih (l.recordReplacement r)

/-- Replacing several targets narrows a workspace. -/
theorem narrows_replaceAll (w : Workspace) (rs : List Replacement) :
    (rs.foldl replace w).Narrows w where
  -- Edges and live targets are lost, and none are won.
  outline := w.outline_replaceAll rs
  edges id edge member := by
    rw [targetEdges_replaceAll] at member
    exact (List.mem_filter.mp member).1
  live id live := ((w.live_replaceAll rs id).mp live).1

/-- Replacing several targets keeps a workspace sustained, since no edge to one of them is left. -/
theorem Sustained.replaceAll (sustained : w.Sustained) (rs : List Replacement) :
    (rs.foldl replace w).Sustained := by
  -- An edge that is left does not lead to a replaced target.
  refine sustained.narrow (w.narrows_replaceAll rs) ?_
  intro id t found live edge next d there before
  rw [targetEdges_replaceAll, List.mem_filter] at next
  have kept : edge.identity ∉ replacedIn rs := of_decide_eq_true next.2
  exact (w.live_replaceAll rs edge).mpr ⟨before, kept⟩

/-- What is found under some roots and is live there leads to `k`. -/
def Supports (w : Workspace) (roots : SortedSet TargetId) (k : Identity) : Prop :=
  -- The root must be live, and what lies between need not be.
  ∃ root ∈ roots.toList, ∃ t, w.ownedTarget? root = some t ∧ w.Live root ∧
    ReflTransGen w.Leads t.identity k

/-- The live targets that are found under some roots. -/
def liveSources (w : Workspace) (roots : SortedSet TargetId) : SortedSet OwnedTarget :=
  -- A root that is not found is passed over.
  .collect <| (roots.toList.filterMap w.ownedTarget?).filter fun t => !t.target.pruned

/-- What the live roots need is what they support. -/
theorem needs_liveSources {roots : SortedSet TargetId} {k : Identity} :
    w.Needs (w.liveSources roots).toList k ↔ w.Supports roots k := by
  -- Only the identities of sources matter, and collecting loses none of them.
  have members : ∀ a, a ∈ (w.liveSources roots).toList.map OwnedTarget.identity ↔
      ∃ root ∈ roots.toList, ∃ t, w.ownedTarget? root = some t ∧ w.Live root ∧ t.identity = a := by
    intro a
    rw [liveSources, SortedSet.mem_identity_collect]
    simp only [List.mem_map, List.mem_filter, List.mem_filterMap, Bool.not_eq_true']
    constructor
    · rintro ⟨t, ⟨⟨root, given, found⟩, live⟩, same⟩
      exact ⟨root, given, t, found, (live_iff_of_found found).mpr live, same⟩
    · rintro ⟨root, given, t, found, live, same⟩
      exact ⟨t, ⟨⟨root, given, found⟩, (live_iff_of_found found).mp live⟩, same⟩
  constructor
  · rintro ⟨s, given, path⟩
    obtain ⟨root, there, t, found, live, same⟩ := (members _).mp (List.mem_map_of_mem given)
    exact ⟨root, there, t, found, live, by rwa [same]⟩
  · rintro ⟨root, there, t, found, live, path⟩
    obtain ⟨s, given, same⟩ := List.mem_map.mp ((members _).mpr ⟨root, there, t, found, live, rfl⟩)
    exact ⟨s, given, by rwa [same]⟩

/-- What is pruned once the targets that are needed are known. -/
def keepOnly (w : Workspace) (needed : SortedSet OwnedTarget) : Workspace :=
  -- A flag that is set stays set.
  w.mapTargets fun path t =>
    if (SortedSet.collect (needed.toList.map OwnedTarget.id)).contains ⟨path, t.name⟩ then t
    else { t with pruned := true }

/-- Pruning succeeds where the live roots have a closure. -/
theorem pruneUnreachable_eq_ok {roots : SortedSet TargetId} :
    w.pruneUnreachable roots = .ok w' ↔
      ∃ needed, w.closure (w.liveSources roots) = .ok needed ∧ w' = w.keepOnly needed := by
  -- Only the closure can fail.
  change ((w.closure (w.liveSources roots)).mapError PassError.cyclicDependency >>=
    fun needed => pure (w.keepOnly needed)) = .ok w' ↔ _
  cases w.closure (w.liveSources roots) with
  | error loop => simp
  | ok needed => simp [pure, Except.pure, eq_comm]

/-- Pruning succeeds where no live target leads to a loop. -/
theorem LoopFree.exists_pruneUnreachable (free : w.LoopFree) (roots : SortedSet TargetId) :
    ∃ w', w.pruneUnreachable roots = .ok w' := by
  -- The sources of the closure are live, so that they lead to no loop.
  have acyclic : ∀ k, w.Needs (w.liveSources roots).toList k → ¬ TransGen w.Leads k k := by
    intro k needed
    obtain ⟨root, _, t, found, live, path⟩ := needs_liveSources.mp needed
    exact free root t found live k path
  obtain ⟨needed, closed⟩ := exists_closure acyclic
  exact ⟨w.keepOnly needed, pruneUnreachable_eq_ok.mpr ⟨needed, closed, rfl⟩⟩

/-- What pruning makes of a workspace: nothing but what the live roots support stays live. -/
structure Reduced (w' w : Workspace) (roots : SortedSet TargetId) : Prop where
  -- The edges stay as they are, so what leads where does not change.
  outline : w'.outline = w.outline
  edges : ∀ id, w'.targetEdges id = w.targetEdges id
  live : ∀ id, w'.Live id ↔
    w.Live id ∧ ∃ t, w.ownedTarget? id = some t ∧ w.Supports roots t.identity

/-- Pruning leaves a workspace reduced to what its live roots support. -/
theorem reduced_of_pruneUnreachable {roots : SortedSet TargetId}
    (done : w.pruneUnreachable roots = .ok w') : w'.Reduced w roots := by
  obtain ⟨needed, closed, rfl⟩ := pruneUnreachable_eq_ok.mp done
  obtain ⟨members, _⟩ := closure_eq_ok closed
  refine ⟨w.outline_mapTargets fun _ _ => ?_, fun _ => rfl, fun id => ?_⟩
  · split <;> rfl
  -- A target stays live when it was and its identity is one of those that are needed.
  have kept : ∀ t : OwnedTarget, (SortedSet.collect (needed.toList.map OwnedTarget.id)).contains
      ⟨t.path, t.target.name⟩ = true ↔ w.Supports roots t.identity := by
    intro t
    rw [SortedSet.contains_collect_id, ← needs_liveSources, ← members, List.map_map]
    rfl
  rw [keepOnly, live_mapTargets, live_iff]
  constructor
  · -- A target that is not kept is pruned.
    rintro ⟨t, found, live⟩
    split at live
    · rename_i held
      exact ⟨⟨t, found, live⟩, t, found, (kept t).mp held⟩
    · cases live
  · rintro ⟨⟨t, found, live⟩, u, also, supported⟩
    have same : t = u := by simpa [found] using also
    subst same
    exact ⟨t, found, by rw [if_pos ((kept t).mpr supported), live]⟩

/-- A reduced workspace narrows the one that it is made of. -/
theorem Reduced.narrows {roots : SortedSet TargetId} (reduced : w'.Reduced w roots) :
    w'.Narrows w where
  -- Targets are lost, and no edges are.
  outline := reduced.outline
  edges id edge member := by rwa [reduced.edges] at member
  live id live := ((reduced.live id).mp live).1

/-- A reduced workspace is sustained if it was before, since what is supported is closed under
target edges. -/
theorem Reduced.sustained {roots : SortedSet TargetId} (reduced : w'.Reduced w roots)
    (sustained : w.Sustained) : w'.Sustained := by
  -- A live target is supported by some live root.
  refine sustained.narrow reduced.narrows ?_
  intro id t found live edge next d there before
  obtain ⟨_, u, also, root, given, s, rooted, alive, path⟩ := (reduced.live id).mp live
  have same : t = u := by simpa [found] using also
  subst same
  -- The walk from the root goes on along the edge.
  rw [reduced.edges] at next
  have step : w.Leads t.identity d.identity := leads_iff.mpr ⟨edge, next, d, there, rfl⟩
  exact (reduced.live edge).mpr ⟨before, d, there, root, given, s, rooted, alive, path.tail step⟩

/-- A substitution changes nothing where no live target has an artefact, and replaces and prunes
otherwise. -/
theorem substitute_eq_ok {table : ArtifactTable} : w.substitute table l = .ok (w', l') ↔
    w.replaceable table = [] ∧ w' = w ∧ l' = l ∨
      w.replaceable table ≠ [] ∧
        ((w.replaceable table).foldl replace w).pruneUnreachable (w.liveRoots l) = .ok w' ∧
          l' = (w.replaceable table).foldl Ledger.recordReplacement l := by
  -- Once there is something to replace, only the pruning can fail.
  rw [substitute]
  cases w.replaceable table with
  | nil => simp [eq_comm]
  | cons r rest =>
    cases pruned : ((r :: rest).foldl replace w).pruneUnreachable (w.liveRoots l) <;>
      simp [-List.foldl_cons, pruned, pure, Except.pure, eq_comm]

/-- A substitution notes its replacements. -/
theorem ledger_substitute {table : ArtifactTable} (done : w.substitute table l = .ok (w', l')) :
    l' = (w.replaceable table).foldl Ledger.recordReplacement l := by
  -- Where nothing is replaced there is nothing to note.
  rcases substitute_eq_ok.mp done with ⟨empty, _, rfl⟩ | ⟨_, _, noted⟩
  · rw [empty]
    rfl
  · exact noted

/-- A substitution succeeds where no live target leads to a loop. -/
theorem LoopFree.exists_substitute (free : w.LoopFree) (table : ArtifactTable) (l : Ledger) :
    ∃ w' l', w.substitute table l = .ok (w', l') := by
  by_cases empty : w.replaceable table = []
  · exact ⟨w, l, substitute_eq_ok.mpr (.inl ⟨empty, rfl, rfl⟩)⟩
  · -- Replacing targets brings in no loops.
    have replaced := free.narrow (w.narrows_replaceAll (w.replaceable table))
    obtain ⟨w', pruned⟩ := replaced.exists_pruneUnreachable (w.liveRoots l)
    exact ⟨w', _, substitute_eq_ok.mpr (.inr ⟨empty, pruned, rfl⟩)⟩

/-- A substitution narrows a workspace. -/
theorem narrows_of_substitute {table : ArtifactTable}
    (done : w.substitute table l = .ok (w', l')) : w'.Narrows w := by
  -- Replacing narrows, and pruning narrows further.
  rcases substitute_eq_ok.mp done with ⟨_, rfl, _⟩ | ⟨_, pruned, _⟩
  · exact .refl w'
  · exact (reduced_of_pruneUnreachable pruned).narrows.trans (w.narrows_replaceAll _)

/-- A substitution keeps a workspace sustained. -/
theorem Sustained.substitute (sustained : w.Sustained) {table : ArtifactTable}
    (done : w.substitute table l = .ok (w', l')) : w'.Sustained := by
  -- Replacing keeps it so, and so does pruning.
  rcases substitute_eq_ok.mp done with ⟨_, rfl, _⟩ | ⟨_, pruned, _⟩
  · exact sustained
  · exact (reduced_of_pruneUnreachable pruned).sustained (sustained.replaceAll _)

end Workspace

end BuildGraph
