import BuildGraph.Proofs.Consistency
import BuildGraph.Proofs.Scheduling
import BuildGraph.Proofs.Wiring

/-! What is live at the end of a run is what the roots of its selection lead to without passing
through a target that has an artefact. -/

namespace BuildGraph

open Relation

namespace Workspace

variable {w w' w'' : Workspace} {l l' : Ledger} {sources sources' : List OwnedTarget}

/-- What is needed depends on the identities of the sources and on what leads where. -/
theorem needs_congr (leads : w'.Leads = w.Leads)
    (ids : sources'.map OwnedTarget.id = sources.map OwnedTarget.id) {k : Identity} :
    w'.Needs sources' k ↔ w.Needs sources k := by
  -- A source counts only by its identity.
  have among : ∀ list : List OwnedTarget, (∃ t ∈ list, ReflTransGen w.Leads t.identity k) ↔
      ∃ id ∈ list.map OwnedTarget.id, ReflTransGen w.Leads id.identity k := by
    intro list
    simp [OwnedTarget.identity]
  rw [Needs, Needs, leads, among, among, ids]

/-- A workspace that is focused on the sources of one is focused on those of another with the same
targets and target edges. -/
theorem Focused.of_outline (focused : w''.Focused w' sources') (same : w'.outline = w.outline)
    (edges : ∀ id, w'.targetEdges id = w.targetEdges id)
    (ids : sources'.map OwnedTarget.id = sources.map OwnedTarget.id) : w''.Focused w sources := by
  -- Targets are found on both sides up to what passes may change, and are needed on both.
  have leads := leads_of_outline same edges
  have needs : ∀ k, w'.Needs sources' k ↔ w.Needs sources k := fun k => needs_congr leads ids
  refine ⟨focused.outline.trans same, fun id => (focused.edges id).trans (edges id), fun id => ?_,
    fun k needed => ?_⟩
  · rw [focused.live]
    constructor
    · rintro ⟨t, found, needed⟩
      obtain ⟨u, there, outline⟩ := exists_ownedTarget?_of_outline same found
      rw [needs, OwnedTarget.identity, OwnedTarget.id_of_outline outline] at needed
      exact ⟨u, there, needed⟩
    · rintro ⟨t, found, needed⟩
      obtain ⟨u, there, outline⟩ := exists_ownedTarget?_of_outline same.symm found
      rw [OwnedTarget.identity, OwnedTarget.id_of_outline outline, ← OwnedTarget.identity,
        ← needs] at needed
      exact ⟨u, there, needed⟩
  · rw [← leads]
    exact focused.acyclic k ((needs k).mpr needed)

/-- In a tidy workspace that is focused, what is live is what is needed. -/
theorem Focused.live_iff_needs (focused : w'.Focused w sources) (tidy : w.Tidy)
    (owned : ∀ t ∈ sources, t ∈ w.owned) {id : TargetId} :
    w'.Live id ↔ w.Needs sources id.identity := by
  -- What is needed is a target of the workspace, and is found under its identity.
  rw [focused.live]
  constructor
  · rintro ⟨t, found, needed⟩
    rwa [tidy id t found] at needed
  · intro needed
    obtain ⟨t, member, same⟩ := List.mem_map.mp (Needs.mem_owned owned needed)
    have found : w.ownedTarget? id = some t := by
      rw [← ownedTarget?_congr (show t.id.identity = id.identity from same), tidy.found member]
    exact ⟨t, found, by rwa [same]⟩

/-- In a tidy workspace that is focused, the live targets are those that are needed. -/
theorem Focused.exists_liveTarget_iff (focused : w'.Focused w sources) (tidy : w.Tidy)
    (owned : ∀ t ∈ sources, t ∈ w.owned) {k : Identity} :
    (∃ t ∈ w'.liveTargets.toList, t.identity = k) ↔ w.Needs sources k := by
  -- A needed identity is one that a target is found under.
  rw [(tidy.of_outline focused.outline).exists_liveTarget_iff]
  constructor
  · rintro ⟨id, live, rfl⟩
    exact (focused.live_iff_needs tidy owned).mp live
  · intro needed
    obtain ⟨t, _, rfl⟩ := List.mem_map.mp (Needs.mem_owned owned needed)
    exact ⟨t.id, (focused.live_iff_needs tidy owned).mpr needed, rfl⟩

/-- What is replaced are the live targets whose names have an artefact. -/
theorem mem_replacedIn {table : ArtifactTable} {k : Identity} :
    k ∈ replacedIn (w.replaceable table) ↔
      (∃ t ∈ w.liveTargets.toList, t.identity = k) ∧ (table.get? k.2).isSome = true := by
  -- A live target is replaced when the table has its name, which its identity tells.
  simp only [replacedIn, replaceable, List.mem_map, List.mem_filterMap, Option.map_eq_some_iff]
  constructor
  · rintro ⟨r, ⟨t, member, artifact, found, rfl⟩, rfl⟩
    refine ⟨⟨t, member, rfl⟩, ?_⟩
    rw [show t.id.identity.2 = t.name from rfl, found]
    rfl
  · rintro ⟨⟨t, member, rfl⟩, found⟩
    obtain ⟨artifact, found⟩ := Option.isSome_iff_exists.mp found
    exact ⟨⟨t.id, artifact⟩, ⟨t, member, artifact, found, rfl⟩, rfl⟩

/-- The live roots are the live targets to which no live target leads, and those that are
requested. -/
theorem exists_liveRoot_iff {k : Identity} :
    (∃ root ∈ (w.liveRoots l).toList, root.identity = k) ↔ ∃ t ∈ w.liveTargets.toList,
      t.identity = k ∧ ((∀ u ∈ w.liveTargets.toList, ¬ w.Leads u.identity k) ∨
        l.isRequested t.id = true) := by
  -- A target is consumed when a live target leads to its identity.
  have consumed : ∀ t : OwnedTarget, (SortedSet.collect (w.liveTargets.toList.flatMap fun u =>
      (w.directDependencies u.id).toList.map OwnedTarget.id)).contains t.id = true ↔
        ∃ u ∈ w.liveTargets.toList, w.Leads u.identity t.identity := by
    intro t
    simp only [SortedSet.contains_collect_id, List.map_flatMap, List.mem_flatMap, List.map_map,
      leads_iff_mem]
    rfl
  rw [liveRoots, ← List.mem_map,
    SortedSet.mem_map_collect fun a b => TargetId.compare_eq_iff.mp]
  simp only [List.mem_map, List.mem_filter, Bool.or_eq_true, Bool.not_eq_true']
  constructor
  · rintro ⟨_, ⟨⟨t, member, rfl⟩, kept⟩, rfl⟩
    refine ⟨t, member, rfl, kept.imp_left fun free u other leads => ?_⟩
    exact Bool.eq_false_iff.mp free ((consumed t).mpr ⟨u, other, leads⟩)
  · rintro ⟨t, member, rfl, kept⟩
    refine ⟨t.id, ⟨⟨t, member, rfl⟩, kept.imp_left fun free => ?_⟩, rfl⟩
    refine Bool.eq_false_iff.mpr fun held => ?_
    obtain ⟨u, other, leads⟩ := (consumed t).mp held
    exact free u other leads

/-- However it is told which identities live targets have, the live roots have those to which no
such identity leads, and those that are requested. -/
theorem exists_liveRoot_iff_of_live {lives : Identity → Prop}
    (live : ∀ k, (∃ t ∈ w.liveTargets.toList, t.identity = k) ↔ lives k) {k : Identity} :
    (∃ root ∈ (w.liveRoots l).toList, root.identity = k) ↔
      lives k ∧ ((∀ a, lives a → ¬ w.Leads a k) ∨
        ∃ id : TargetId, id.identity = k ∧ l.isRequested id = true) := by
  -- No live target leads to the identity just if nothing that lives does.
  have free : (∀ u ∈ w.liveTargets.toList, ¬ w.Leads u.identity k) ↔
      ∀ a, lives a → ¬ w.Leads a k := by
    constructor
    · intro none a lives
      obtain ⟨u, member, rfl⟩ := (live a).mpr lives
      exact none u member
    · intro none u member
      exact none u.identity ((live _).mp ⟨u, member, rfl⟩)
  rw [exists_liveRoot_iff, ← live, free]
  -- A request counts under every spelling of the identity.
  constructor
  · rintro ⟨t, member, same, kept⟩
    exact ⟨⟨t, member, same⟩, kept.imp_right fun requested => ⟨t.id, same, requested⟩⟩
  · rintro ⟨⟨t, member, same⟩, kept⟩
    refine ⟨t, member, same, kept.imp_right fun ⟨id, also, requested⟩ => ?_⟩
    rwa [Ledger.isRequested_congr (show t.id.identity = id.identity from same.trans also.symm)]

/-- Replacing targets of a tidy workspace leaves the edges to other targets. -/
theorem leads_replaceAll (tidy : w.Tidy) (rs : List Replacement) {a b : Identity} :
    (rs.foldl replace w).Leads a b ↔ w.Leads a b ∧ b ∉ replacedIn rs := by
  -- In a tidy workspace, an edge leads to the identity that it names, so that it is dropped when
  -- that is replaced.
  have outline := w.outline_replaceAll rs
  constructor
  · -- An edge that is left was there before, and names nothing that is replaced.
    rintro ⟨id, rfl, next⟩
    obtain ⟨edge, member, t, found, rfl⟩ := leads_iff.mp ⟨id, rfl, next⟩
    have same : t.identity = edge.identity := tidy.of_outline outline edge t found
    obtain ⟨u, there, also⟩ := exists_ownedTarget?_of_outline outline found
    rw [targetEdges_replaceAll, List.mem_filter] at member
    refine ⟨leads_iff.mpr ⟨edge, member.1, u, there, ?_⟩, ?_⟩
    · exact (tidy edge u there).trans same.symm
    · rw [same]
      exact of_decide_eq_true member.2
  · -- An edge that names nothing replaced is left.
    rintro ⟨⟨id, rfl, next⟩, kept⟩
    obtain ⟨edge, member, t, found, rfl⟩ := leads_iff.mp ⟨id, rfl, next⟩
    have same : t.identity = edge.identity := tidy edge t found
    obtain ⟨u, there, also⟩ := exists_ownedTarget?_of_outline outline.symm found
    refine leads_iff.mpr ⟨edge, ?_, u, there, ?_⟩
    · rw [targetEdges_replaceAll, List.mem_filter, ← same]
      exact ⟨member, decide_eq_true kept⟩
    · rw [OwnedTarget.identity, OwnedTarget.identity, OwnedTarget.id_of_outline also]

/-- A needed identity whose name has an artefact. -/
def Cached (w : Workspace) (sources : List OwnedTarget) (table : ArtifactTable) (k : Identity) :
    Prop :=
  -- The name decides, so all needed targets of a name are cached together.
  w.Needs sources k ∧ (table.get? k.2).isSome = true

/-- A needed identity to which nothing needed leads, or that is requested. -/
def Rooted (w : Workspace) (sources : List OwnedTarget) (l : Ledger) (k : Identity) : Prop :=
  -- A request counts under every spelling of the identity.
  w.Needs sources k ∧ ((∀ a, w.Needs sources a → ¬ w.Leads a k) ∨
    ∃ id : TargetId, id.identity = k ∧ l.isRequested id = true)

/-- Where the sources are what is requested, they are the roots. -/
theorem rooted_iff_of_requested {k : Identity} (requested : ∀ id, l.isRequested id = true ↔
    ∃ t ∈ sources, t.identity = id.identity) :
    w.Rooted sources l k ↔ ∃ t ∈ sources, t.identity = k := by
  simp only [Rooted, requested]
  constructor
  · rintro ⟨⟨t, given, path⟩, highest | ⟨id, rfl, u, also, same⟩⟩
    · -- Nothing needed leads to the root, so that the walk from a source to it has no step.
      cases path with
      | refl => exact ⟨t, given, rfl⟩
      | tail path next => exact absurd next (highest _ ⟨t, given, path⟩)
    · exact ⟨u, also, same⟩
  · rintro ⟨t, given, rfl⟩
    exact ⟨⟨t, given, .refl⟩, .inr ⟨t.id, rfl, t, given, rfl⟩⟩

/-- What a root that is not cached leads to without passing through anything that is. -/
def Remains (w : Workspace) (sources : List OwnedTarget) (table : ArtifactTable) (l : Ledger)
    (k : Identity) : Prop :=
  -- Cached ones are not passed through, and the root must not be one either.
  ∃ root, w.Rooted sources l root ∧ ¬ w.Cached sources table root ∧
    ReflTransGen (fun a b => w.Leads a b ∧ ¬ w.Cached sources table b) root k

/-- What remains is needed and not cached. -/
theorem Remains.needed_and_kept {table : ArtifactTable} {k : Identity}
    (remains : w.Remains sources table l k) :
    w.Needs sources k ∧ ¬ w.Cached sources table k := by
  obtain ⟨root, rooted, kept, path⟩ := remains
  -- Each step of the walk keeps both facts.
  induction path with
  | refl => exact ⟨rooted.1, kept⟩
  | tail _ next ih => exact ⟨ih.1.tail next.1, next.2⟩

/-- What remains goes on along edges to what is not cached. -/
theorem Remains.tail {table : ArtifactTable} {a b : Identity}
    (remains : w.Remains sources table l a) (next : w.Leads a b)
    (kept : ¬ w.Cached sources table b) : w.Remains sources table l b := by
  -- The walk that reached the one goes on by a step.
  obtain ⟨root, rooted, uncached, path⟩ := remains
  exact ⟨root, rooted, uncached, path.tail ⟨next, kept⟩⟩

namespace Focused

variable {table : ArtifactTable}

/-- What is replaced in a focused workspace is what is needed and has an artefact. -/
theorem mem_replacedIn_iff (focused : w'.Focused w sources) (tidy : w.Tidy)
    (owned : ∀ t ∈ sources, t ∈ w.owned) {k : Identity} :
    k ∈ replacedIn (w'.replaceable table) ↔ w.Cached sources table k := by
  -- What lives in a focused workspace is what is needed.
  rw [mem_replacedIn, focused.exists_liveTarget_iff tidy owned, Cached]

/-- The live roots of a focused workspace are the needed identities that are roots. -/
theorem exists_liveRoot_iff (focused : w'.Focused w sources) (tidy : w.Tidy)
    (owned : ∀ t ∈ sources, t ∈ w.owned) {k : Identity} :
    (∃ root ∈ (w'.liveRoots l).toList, root.identity = k) ↔ w.Rooted sources l k := by
  -- What is live is what is needed, and leads to the same as before.
  rw [exists_liveRoot_iff_of_live fun k => focused.exists_liveTarget_iff tidy owned (k := k),
    focused.leads, Rooted]

/-- Once everything cached is replaced, an identity leads to what it led to and is not cached. -/
theorem leads_replaced (focused : w'.Focused w sources) (tidy : w.Tidy)
    (owned : ∀ t ∈ sources, t ∈ w.owned) :
    ((w'.replaceable table).foldl replace w').Leads =
      fun a b => w.Leads a b ∧ ¬ w.Cached sources table b := by
  -- What is replaced is what is cached.
  funext a b
  rw [← focused.leads]
  refine propext ((leads_replaceAll (tidy.of_outline focused.outline) _).trans ?_)
  exact and_congr_right fun _ => not_congr (focused.mem_replacedIn_iff tidy owned)

/-- Once everything cached is replaced, what is needed and not cached is live. -/
theorem live_replaced (focused : w'.Focused w sources) (tidy : w.Tidy)
    (owned : ∀ t ∈ sources, t ∈ w.owned) {id : TargetId} :
    ((w'.replaceable table).foldl replace w').Live id ↔
      w.Needs sources id.identity ∧ ¬ w.Cached sources table id.identity := by
  -- Replacing takes away just the targets that it prunes.
  rw [live_replaceAll, focused.live_iff_needs tidy owned, focused.mem_replacedIn_iff tidy owned]

/-- Once everything cached is replaced, targets still have the identities that they are found
under. -/
theorem tidy_replaced (focused : w'.Focused w sources) (tidy : w.Tidy) :
    ((w'.replaceable table).foldl replace w').Tidy :=
  -- Neither a focus nor a replacement changes the outline.
  tidy.of_outline ((w'.outline_replaceAll _).trans focused.outline)

/-- Once everything cached is replaced, the live roots support what remains. -/
theorem supports_replaced (focused : w'.Focused w sources) (tidy : w.Tidy)
    (owned : ∀ t ∈ sources, t ∈ w.owned) {k : Identity} :
    ((w'.replaceable table).foldl replace w').Supports (w'.liveRoots l) k ↔
      w.Remains sources table l k := by
  -- The live roots are the roots that are not cached.
  have tidy' : ((w'.replaceable table).foldl replace w').Tidy := focused.tidy_replaced tidy
  rw [Supports, focused.leads_replaced tidy owned]
  constructor
  · -- A root that is live after the replacements is not cached.
    rintro ⟨root, given, t, found, live, path⟩
    have same : t.identity = root.identity := tidy' root t found
    rw [same] at path
    have rooted := (focused.exists_liveRoot_iff tidy owned).mp ⟨root, given, rfl⟩
    exact ⟨root.identity, rooted, ((focused.live_replaced tidy owned).mp live).2, path⟩
  · -- A root that is not cached is live after the replacements.
    rintro ⟨_, rooted, kept, path⟩
    obtain ⟨root, given, rfl⟩ := (focused.exists_liveRoot_iff tidy owned).mpr rooted
    have live := (focused.live_replaced tidy owned).mpr ⟨rooted.1, kept⟩
    obtain ⟨t, found, _⟩ := live_iff.mp live
    exact ⟨root, given, t, found, live, by rwa [tidy' root t found]⟩

/-- Where no live target of a focused workspace has an artefact, nothing is cached. -/
theorem not_cached (focused : w'.Focused w sources) (tidy : w.Tidy)
    (owned : ∀ t ∈ sources, t ∈ w.owned) (empty : w'.replaceable table = []) (k : Identity) :
    ¬ w.Cached sources table k := by
  -- Whatever is cached would be replaced.
  intro cached
  have member := (focused.mem_replacedIn_iff tidy owned).mpr cached
  rw [empty] at member
  cases member

/-- Once a focused workspace has been substituted, targets still have the identities that they are
found under. -/
theorem tidy_substitute (focused : w'.Focused w sources) (tidy : w.Tidy)
    (done : w'.substitute table l = .ok (w'', l')) : w''.Tidy :=
  -- Neither a focus nor a substitution changes the outline.
  tidy.of_outline ((narrows_of_substitute done).outline.trans focused.outline)

/-- What is live once a focused workspace has been substituted is what remains. -/
theorem live_substitute (focused : w'.Focused w sources) (tidy : w.Tidy)
    (owned : ∀ t ∈ sources, t ∈ w.owned) (done : w'.substitute table l = .ok (w'', l'))
    {id : TargetId} : w''.Live id ↔ w.Remains sources table l id.identity := by
  rcases substitute_eq_ok.mp done with ⟨empty, rfl, _⟩ | ⟨_, pruned, _⟩
  · -- Nothing is cached, and all that is needed is below something at the top.
    have kept := focused.not_cached tidy owned empty
    rw [focused.live_iff_needs tidy owned]
    constructor
    · intro needed
      obtain ⟨top, also, highest, path⟩ := exists_top_of_acyclic owned focused.acyclic needed
      refine ⟨top, ⟨also, .inl highest⟩, kept top, ?_⟩
      exact ReflTransGen.mono (fun a b next => ⟨next, kept b⟩) _ _ path
    · exact fun remains => remains.needed_and_kept.1
  · -- What stays live was neither replaced nor cut off, and what remains is neither.
    rw [(reduced_of_pruneUnreachable pruned).live, focused.live_replaced tidy owned]
    have tidy' : ((w'.replaceable table).foldl replace w').Tidy := focused.tidy_replaced tidy
    constructor
    · rintro ⟨_, t, found, supported⟩
      rw [tidy' id t found] at supported
      exact (focused.supports_replaced tidy owned).mp supported
    · intro remains
      have live := (focused.live_replaced tidy owned).mpr remains.needed_and_kept
      obtain ⟨t, found, _⟩ := live_iff.mp live
      refine ⟨remains.needed_and_kept, t, found, ?_⟩
      rw [tidy' id t found]
      exact (focused.supports_replaced tidy owned).mpr remains

/-- Once a focused workspace has been substituted, an identity leads to what it led to and is not
cached. -/
theorem leads_substitute (focused : w'.Focused w sources) (tidy : w.Tidy)
    (owned : ∀ t ∈ sources, t ∈ w.owned) (done : w'.substitute table l = .ok (w'', l')) :
    w''.Leads = fun a b => w.Leads a b ∧ ¬ w.Cached sources table b := by
  rcases substitute_eq_ok.mp done with ⟨empty, rfl, _⟩ | ⟨_, pruned, _⟩
  · -- Nothing is cached, so that all edges are left.
    rw [focused.leads]
    funext a b
    simp [focused.not_cached tidy owned empty b]
  · -- Pruning leaves the edges that replacing has left.
    have reduced := reduced_of_pruneUnreachable pruned
    rw [leads_of_outline reduced.outline reduced.edges, focused.leads_replaced tidy owned]

/-- What is noted to be replaced once a focused workspace has been substituted is what was noted
before and what is cached. -/
theorem isReplaced_substitute (focused : w'.Focused w sources) (tidy : w.Tidy)
    (owned : ∀ t ∈ sources, t ∈ w.owned) (done : w'.substitute table l = .ok (w'', l'))
    {id : TargetId} : l'.isReplaced id = true ↔
      l.isReplaced id = true ∨ w.Cached sources table id.identity := by
  -- What is cached is what is replaced.
  rw [← focused.mem_replacedIn_iff tidy owned, ledger_substitute done]
  exact isReplaced_recordAll l _ id

/-- Of what is live once a focused workspace has been substituted, that is noted to be replaced
which was so before. -/
theorem isReplaced_of_live (focused : w'.Focused w sources) (tidy : w.Tidy)
    (owned : ∀ t ∈ sources, t ∈ w.owned) (done : w'.substitute table l = .ok (w'', l'))
    {id : TargetId} (live : w''.Live id) : l'.isReplaced id = l.isReplaced id := by
  -- Only cached targets are newly noted, and these do not remain.
  have remains := (focused.live_substitute tidy owned done).mp live
  rw [Bool.eq_iff_iff, focused.isReplaced_substitute tidy owned done,
    or_iff_left remains.needed_and_kept.2]

end Focused

end Workspace

end BuildGraph
