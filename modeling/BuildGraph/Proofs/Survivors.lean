import BuildGraph.Proofs.ArtifactEdges
import BuildGraph.Proofs.CachingInSteps
import BuildGraph.Proofs.Refusals

/-! Which targets caching prunes besides those that it replaces, and which it leaves, whatever was
pruned before. -/

namespace BuildGraph

open Relation

/-- Going against a relation among finitely many things comes to an end, or runs into a loop. -/
theorem exists_top_or_loop {α : Type} [Finite α] {r : α → α → Prop} (b : α) :
    (∃ top, (∀ a, ¬ r a top) ∧ ReflTransGen r top b) ∨
      ∃ a, TransGen r a a ∧ ReflTransGen r a b := by
  by_cases looped : ∃ a, TransGen r a a ∧ ReflTransGen r a b
  · exact .inr looped
  · -- There is no loop among what leads to the thing, and whatever leads there is among that.
    have acyclic : ∀ a : {a // ReflTransGen r a b},
        ¬ TransGen (fun c d : {a // ReflTransGen r a b} => r c.1 d.1) a a := fun a loop =>
      looped ⟨a.1, loop.lift Subtype.val fun _ _ next => next, a.2⟩
    obtain ⟨top, highest, _⟩ := exists_top acyclic ⟨b, .refl⟩
    exact .inl ⟨top.1, fun a next => highest ⟨a, .head next top.2⟩ next, top.2⟩

/-- A walk keeps clear of certain things, or one of them leads to its end. -/
theorem clear_or_passes {α : Type} {r : α → α → Prop} (hit : α → Prop) {a b : α}
    (path : ReflTransGen r a b) :
    ¬ hit a ∧ ReflTransGen (fun c d => r c d ∧ ¬ hit d) a b ∨ ∃ c, hit c ∧ ReflTransGen r c b := by
  -- By induction on the walk, from its start: the first step that hits starts the second case, and
  -- from there on the walk is only made longer.
  induction path with
  | refl =>
    by_cases here : hit a
    · exact .inr ⟨a, here, .refl⟩
    · exact .inl ⟨here, .refl⟩
  | @tail c d _ next ih =>
    rcases ih with ⟨start, clear⟩ | ⟨e, before, path⟩
    · by_cases here : hit d
      · exact .inr ⟨d, here, .refl⟩
      · exact .inl ⟨start, clear.tail ⟨next, here⟩⟩
    · exact .inr ⟨e, before, path.tail next⟩

namespace Workspace

variable {w w' : Workspace} {l l' : Ledger} {table : ArtifactTable} {k : Identity}

/-- A live target is found under some spelling of an identity. -/
def Lives (w : Workspace) (k : Identity) : Prop :=
  -- Any spelling will do, as targets are found by identity.
  ∃ id, w.Live id ∧ id.identity = k

/-- A live target that no live target depends on directly, or that is requested. -/
def IsRoot (w : Workspace) (l : Ledger) (k : Identity) : Prop :=
  -- Pruned consumers do not count.
  w.Lives k ∧ ((∀ a, w.Lives a → ¬ w.PointsTo a k) ∨
    ∃ id : TargetId, id.identity = k ∧ l.isRequested id = true)

/-- A live target points to a live target. -/
def PointsLive (w : Workspace) (a b : Identity) : Prop :=
  -- Both ends are live, unlike those of an edge as such.
  w.Lives a ∧ w.PointsTo a b ∧ w.Lives b

/-- What is live depends on the identity only. -/
theorem lives_identity {id : TargetId} : w.Lives id.identity ↔ w.Live id := by
  -- Being live is the same for all spellings of an identity.
  constructor
  · rintro ⟨other, live, same⟩
    exact (live_congr same).mp live
  · intro live
    exact ⟨id, live, rfl⟩

/-- Where pruning succeeds, nothing that the live roots support lies on a loop. -/
theorem acyclic_of_pruneUnreachable {roots : SortedSet TargetId}
    (done : w.pruneUnreachable roots = .ok w') (supported : w.Supports roots k) :
    ¬ TransGen w.Leads k k := by
  -- Pruning succeeds only if the closure of the live sources does, and a closure that ends well has
  -- met no loop.
  obtain ⟨needed, closed, _⟩ := pruneUnreachable_eq_ok.mp done
  exact (closure_eq_ok closed).2 k (needs_liveSources.mpr supported)

/-- The identities of replaced targets are those of the targets that artefacts stand in for. -/
theorem mem_replacedIn_iff_substitutes :
    k ∈ replacedIn (w.replaceable table) ↔ ∃ r a, w.Substitutes table r a ∧ r.identity = k := by
  -- What can be replaced is listed with its artefact, one target after another.
  simp only [replacedIn, List.mem_map, mem_replaceable]
  constructor
  · rintro ⟨_, ⟨t, a, stands, rfl⟩, same⟩
    exact ⟨t, a, stands, same⟩
  · rintro ⟨t, a, stands, same⟩
    exact ⟨⟨t.id, a⟩, ⟨t, a, stands, rfl⟩, same⟩

/-- What something points to is a target of the workspace. -/
theorem exists_owned_of_pointsTo {a : Identity} (next : w.PointsTo a k) :
    ∃ t ∈ w.owned, t.identity = k := by
  -- What points somewhere does so by a direct dependency, and these are targets of the workspace.
  rw [← leads_eq_pointsTo] at next
  obtain ⟨_, _, t, member, same⟩ := next
  exact ⟨t, w.mem_owned_of_mem_directDependencies member, same⟩

/-- Once targets are replaced, what lives is what lived and is not replaced. -/
theorem lives_replaceAll (rs : List Replacement) :
    (rs.foldl replace w).Lives k ↔ w.Lives k ∧ k ∉ replacedIn rs := by
  -- Replacing prunes what it replaces, and nothing becomes live again.
  constructor
  · rintro ⟨id, live, rfl⟩
    obtain ⟨before, kept⟩ := (w.live_replaceAll rs id).mp live
    exact ⟨⟨id, before, rfl⟩, kept⟩
  · rintro ⟨⟨id, live, rfl⟩, kept⟩
    exact ⟨id, (w.live_replaceAll rs id).mpr ⟨live, kept⟩, rfl⟩

namespace Tidy

/-- A target of a tidy workspace lives under its identity exactly when it is not pruned. -/
theorem lives_iff (tidy : w.Tidy) {t : OwnedTarget} (member : t ∈ w.owned) :
    w.Lives t.identity ↔ t.target.pruned = false :=
  -- In a tidy workspace, the key of a target finds it, so that its flag decides.
  lives_identity.trans (live_iff_of_found (tidy.found member))

/-- What lives in a tidy workspace is one of its targets. -/
theorem exists_owned_of_lives (tidy : w.Tidy) (lives : w.Lives k) :
    ∃ t ∈ w.owned, t.identity = k := by
  -- Live targets are owned ones that are not pruned.
  obtain ⟨t, member, same⟩ := tidy.exists_liveTarget_iff.mpr lives
  exact ⟨t, tidy.liveTargets_owned t member, same⟩

/-- The live roots of a tidy workspace are those of its live targets that are roots. -/
theorem exists_liveRoot_iff (tidy : w.Tidy) :
    (∃ root ∈ (w.liveRoots l).toList, root.identity = k) ↔ w.IsRoot l k := by
  -- An identity lives just if a live target has it.
  have live : ∀ k, (∃ t ∈ w.liveTargets.toList, t.identity = k) ↔ w.Lives k := fun _ =>
    tidy.exists_liveTarget_iff
  rw [exists_liveRoot_iff_of_live live, leads_eq_pointsTo, IsRoot]

/-- Some root leads to a live target of a tidy workspace, or else a loop of live targets does. -/
theorem exists_root_or_loop (tidy : w.Tidy) (l : Ledger) (lives : w.Lives k) :
    (∃ root, w.IsRoot l root ∧ ReflTransGen w.PointsTo root k) ∨
      ∃ a, TransGen w.PointsLive a a ∧ ReflTransGen w.PointsLive a k := by
  -- There are finitely many live targets, and a top among them is a root.
  have listed : {a | w.Lives a} ⊆ {a | a ∈ w.owned.map OwnedTarget.identity} := fun a lives =>
    List.mem_map.mpr (tidy.exists_owned_of_lives lives)
  have finite : Finite {a // w.Lives a} := ((List.finite_toSet _).subset listed).to_subtype
  rcases exists_top_or_loop (r := fun a b : {a // w.Lives a} => w.PointsTo a.1 b.1) ⟨k, lives⟩ with
    ⟨top, highest, path⟩ | ⟨a, loop, path⟩
  · exact .inl ⟨top.1, ⟨top.2, .inl fun a also => highest ⟨a, also⟩⟩,
      path.lift Subtype.val fun _ _ next => next⟩
  · have lifted := fun (b c : {a // w.Lives a}) (next : w.PointsTo b.1 c.1) =>
      (⟨b.2, next, c.2⟩ : w.PointsLive b.1 c.1)
    exact .inr ⟨a.1, loop.lift Subtype.val lifted, path.lift Subtype.val lifted⟩

/-- Once targets of a tidy workspace are replaced, an identity points to what it pointed to and is
not replaced. -/
theorem pointsTo_replaceAll (tidy : w.Tidy) (rs : List Replacement) :
    (rs.foldl replace w).PointsTo = fun a b => w.PointsTo a b ∧ b ∉ replacedIn rs := by
  -- Every edge to a replaced target now ends at its artefact, which is no target.
  rw [← leads_eq_pointsTo, ← leads_eq_pointsTo]
  funext a b
  exact propext (leads_replaceAll tidy rs)

/-- Once targets of a tidy workspace are replaced, its roots support what those of them that are
left lead to. -/
theorem supports_replaceAll (tidy : w.Tidy) (rs : List Replacement) :
    (rs.foldl replace w).Supports (w.liveRoots l) k ↔ ∃ root, w.IsRoot l root ∧
      root ∉ replacedIn rs ∧ ReflTransGen (rs.foldl replace w).PointsTo root k := by
  -- The live roots are those of the workspace before the replacement, and of them only those that
  -- are left are live afterwards.
  have tidy' : (rs.foldl replace w).Tidy := tidy.of_outline (w.outline_replaceAll rs)
  rw [Supports, leads_eq_pointsTo]
  constructor
  · rintro ⟨root, given, t, found, live, path⟩
    rw [tidy' root t found] at path
    exact ⟨root.identity, tidy.exists_liveRoot_iff.mp ⟨root, given, rfl⟩,
      ((w.live_replaceAll rs root).mp live).2, path⟩
  · rintro ⟨_, isRoot, kept, path⟩
    obtain ⟨root, given, rfl⟩ := tidy.exists_liveRoot_iff.mpr isRoot
    have live := (w.live_replaceAll rs root).mpr ⟨lives_identity.mp isRoot.1, kept⟩
    obtain ⟨t, found, _⟩ := live_iff.mp live
    exact ⟨root, given, t, found, live, by rwa [tidy' root t found]⟩

/-- Once targets of a tidy workspace are replaced and what its roots do not support is pruned, that
lives which lived before, is not replaced, and is below a root that is left. -/
theorem lives_pruneUnreachable (tidy : w.Tidy) {rs : List Replacement}
    (done : (rs.foldl replace w).pruneUnreachable (w.liveRoots l) = .ok w') :
    w'.Lives k ↔ (w.Lives k ∧ k ∉ replacedIn rs) ∧ ∃ root, w.IsRoot l root ∧
      root ∉ replacedIn rs ∧ ReflTransGen (rs.foldl replace w).PointsTo root k := by
  -- Pruning keeps live exactly what it is given as supported, on top of what the replacement keeps.
  have tidy' : (rs.foldl replace w).Tidy := tidy.of_outline (w.outline_replaceAll rs)
  rw [← lives_replaceAll, ← tidy.supports_replaceAll]
  constructor
  · rintro ⟨id, live, rfl⟩
    obtain ⟨before, t, found, supported⟩ := ((reduced_of_pruneUnreachable done).live id).mp live
    rw [tidy' id t found] at supported
    exact ⟨⟨id, before, rfl⟩, supported⟩
  · rintro ⟨⟨id, before, rfl⟩, supported⟩
    obtain ⟨t, found, _⟩ := live_iff.mp before
    refine ⟨id, ((reduced_of_pruneUnreachable done).live id).mpr ⟨before, t, found, ?_⟩, rfl⟩
    rwa [tidy' id t found]

/-- What a substitution prunes in a tidy workspace without replacing it is below a replaced target,
or is below no root but below a loop of live targets. -/
theorem dropped_of_substitute (tidy : w.Tidy) (done : w.substitute table l = .ok (w', l'))
    (lives : w.Lives k) (kept : k ∉ replacedIn (w.replaceable table)) (dropped : ¬ w'.Lives k) :
    (∃ c ∈ replacedIn (w.replaceable table), TransGen w.PointsTo c k) ∨
      (∀ root, w.IsRoot l root → ¬ ReflTransGen w.PointsTo root k) ∧
        ∃ a, TransGen w.PointsLive a a ∧ ReflTransGen w.PointsLive a k := by
  rcases substitute_eq_ok.mp done with ⟨_, rfl, _⟩ | ⟨_, pruned, _⟩
  · exact absurd lives dropped
  by_cases rooted : ∃ root, w.IsRoot l root ∧ ReflTransGen w.PointsTo root k
  · -- The walk from the root is cut, since it would support the target otherwise.
    obtain ⟨root, isRoot, path⟩ := rooted
    rcases clear_or_passes (· ∈ replacedIn (w.replaceable table)) path with
      ⟨start, clear⟩ | ⟨c, hit, path⟩
    · rw [← tidy.pointsTo_replaceAll] at clear
      exact absurd ((tidy.lives_pruneUnreachable pruned).mpr
        ⟨⟨lives, kept⟩, root, isRoot, start, clear⟩) dropped
    · rcases reflTransGen_iff_eq_or_transGen.mp path with rfl | path
      · exact absurd hit kept
      · exact .inl ⟨c, hit, path⟩
  · have unrooted : ∀ root, w.IsRoot l root → ¬ ReflTransGen w.PointsTo root k :=
      fun root isRoot path => rooted ⟨root, isRoot, path⟩
    exact .inr ⟨unrooted, (tidy.exists_root_or_loop l lives).resolve_left rooted⟩

/-- What points to a target that a substitution of a tidy workspace leaves, unless that is a root: a
target that is left as well, or one that was pruned before and that a root leads to. -/
theorem left_by_substitute (tidy : w.Tidy) (done : w.substitute table l = .ok (w', l'))
    (lives : w'.Lives k) : w.IsRoot l k ∨ ∃ a, w'.PointsTo a k ∧
      (w'.Lives a ∧ (a = k → w.replaceable table = []) ∨
        a ≠ k ∧ ¬ w.Lives a ∧ (∃ u ∈ w.owned, u.identity = a) ∧
          ∃ root, w.IsRoot l root ∧ w'.Lives root ∧ ReflTransGen w'.PointsTo root a) := by
  rcases substitute_eq_ok.mp done with ⟨empty, rfl, _⟩ | ⟨_, pruned, _⟩
  · -- Nothing has changed, and a target that is no root has a live consumer.
    by_cases isRoot : w'.IsRoot l k
    · exact .inl isRoot
    · have consumed : ∃ a, w'.Lives a ∧ w'.PointsTo a k := by
        by_contra none
        exact isRoot ⟨lives, .inl fun a also next => none ⟨a, also, next⟩⟩
      obtain ⟨a, also, next⟩ := consumed
      exact .inr ⟨a, next, .inl ⟨also, fun _ => empty⟩⟩
  · -- The last step of the walk from a root starts at the consumer.
    have same : w'.PointsTo = ((w.replaceable table).foldl replace w).PointsTo := by
      have reduced := reduced_of_pruneUnreachable pruned
      rw [← leads_eq_pointsTo, ← leads_eq_pointsTo, leads_of_outline reduced.outline reduced.edges]
    obtain ⟨_, root, isRoot, start, path⟩ := (tidy.lives_pruneUnreachable pruned).mp lives
    rcases ReflTransGen.cases_tail path with rfl | ⟨a, path, next⟩
    · exact .inl isRoot
    have there : a ∉ replacedIn (w.replaceable table) ∧ ∃ u ∈ w.owned, u.identity = a := by
      rcases ReflTransGen.cases_tail path with rfl | ⟨b, _, before⟩
      · exact ⟨start, tidy.exists_owned_of_lives isRoot.1⟩
      · rw [tidy.pointsTo_replaceAll] at before
        exact ⟨before.2, exists_owned_of_pointsTo before.1⟩
    -- A consumer that depends on itself would be a loop below a root.
    have other : a ≠ k := by
      rintro rfl
      have supported := (tidy.supports_replaceAll _).mpr ⟨root, isRoot, start, path⟩
      have turned : TransGen ((w.replaceable table).foldl replace w).Leads a a := by
        rw [leads_eq_pointsTo]
        exact .single next
      exact acyclic_of_pruneUnreachable pruned supported turned
    have left := fun {k : Identity} => tidy.lives_pruneUnreachable pruned (k := k)
    rw [same]
    refine .inr ⟨a, next, ?_⟩
    by_cases before : w.Lives a
    · exact .inl ⟨left.mpr ⟨⟨before, there.1⟩, root, isRoot, start, path⟩, fun same =>
        absurd same other⟩
    · exact .inr ⟨other, before, there.2, root, isRoot,
        left.mpr ⟨⟨isRoot.1, start⟩, root, isRoot, start, .refl⟩, path⟩

end Tidy

end Workspace

namespace StandardPass

variable {w : Workspace} {l : Ledger} {table : ArtifactTable} {o : Outcome}

/-- Where caching succeeds on a workspace whose keys are consistent, whatever is pruned there, each
target that it prunes without replacing it is one that a replaced target leads to; or else it is one
that no root leads to, and then a loop of live targets does. -/
theorem caching_prunes_dependents (consistent : w.KeyConsistent)
    (ran : ((caching table).run w l).result = .ok o) :
    ∀ t ∈ w.owned, t.target.pruned = false → (∀ a, ¬ w.Substitutes table t a) →
      ∀ t' ∈ o.workspace.owned, t'.identity = t.identity → t'.target.pruned = true →
        (∃ r a, w.Substitutes table r a ∧ TransGen w.PointsTo r.identity t.identity) ∨
          (∀ root, w.IsRoot l root → ¬ ReflTransGen w.PointsTo root t.identity) ∧
            ∃ k, TransGen w.PointsLive k k ∧ ReflTransGen w.PointsLive k t.identity := by
  obtain ⟨w', l', done, rfl⟩ := run_caching_eq_ok.mp ran
  intro t member live kept t' member' same dropped
  -- What is said of targets follows from what holds for their identities.
  have tidy := consistent.tidy
  have tidy' : w'.Tidy := tidy.of_outline (Workspace.narrows_of_substitute done).outline
  have spared : t.identity ∉ Workspace.replacedIn (w.replaceable table) := by
    intro replaced
    obtain ⟨r, a, stands, alike⟩ := Workspace.mem_replacedIn_iff_substitutes.mp replaced
    obtain rfl := tidy.eq_of_identity (tidy.mem_allTargets.mp stands.1) member alike
    exact kept a stands
  have gone : ¬ w'.Lives t.identity := by
    rw [← same, tidy'.lives_iff member', dropped]
    simp
  rcases tidy.dropped_of_substitute done ((tidy.lives_iff member).mpr live) spared gone with
    ⟨c, replaced, path⟩ | unrooted
  · obtain ⟨r, a, stands, rfl⟩ := Workspace.mem_replacedIn_iff_substitutes.mp replaced
    exact .inl ⟨r, a, stands, path⟩
  · exact .inr unrooted

end StandardPass

namespace Sample

/-- An artefact for the targets of one name. -/
def prebuilt (name : String) : ArtifactTable :=
  .ofList [(name, ⟨⟨"/cache/" ++ name⟩, .framework, .dynamic⟩)]

/-- One of the targets of the project with three libraries. -/
def tangledId (name : String) : TargetId :=
  ⟨tangledProject.path, name⟩

/-- The application needs one library, and the two others need each other. -/
def knotted : Workspace where
  -- Nothing outside leads into the loop, so none of its targets is a root.
  projects := tangled.projects
  dependencies := .ofList [(.target "App" ⟨"/A"⟩, .ofList [.target "Kit" ⟨"/A"⟩]),
    (.target "Core" ⟨"/A"⟩, .ofList [.target "Net" ⟨"/A"⟩]),
    (.target "Net" ⟨"/A"⟩, .ofList [.target "Core" ⟨"/A"⟩])]

/-- What caching the application makes of it: nothing is left. -/
def knottedOutcome : Outcome where
  -- Nothing is needed any more, so all that is not replaced is pruned.
  workspace := ((knotted.replaceable (prebuilt "App")).foldl Workspace.replace knotted).keepOnly {}
  ledger := (knotted.replaceable (prebuilt "App")).foldl Ledger.recordReplacement {}

/-- The keys are consistent. -/
theorem knotted_consistent : knotted.KeyConsistent :=
  -- Both conditions are decided for a fixed workspace.
  ⟨by decide, by decide⟩

/-- Once the application is replaced, there is no root whose closure could be searched for. -/
theorem run_knotted : ((StandardPass.caching (prebuilt "App")).run knotted {}).result =
    .ok knottedOutcome := by
  -- The live sources are empty, since the loop has no root, so the search ends at once.
  have ended : ((knotted.replaceable (prebuilt "App")).foldl Workspace.replace knotted).followed
      (((knotted.replaceable (prebuilt "App")).foldl Workspace.replace knotted).liveSources
        (knotted.liveRoots {})) 20 = some (.ok []) := rfl
  exact StandardPass.run_caching_eq_ok.mpr ⟨_, _, Workspace.substitute_of_followed rfl ended, rfl⟩

/-- The application leads to the library that it needs, and to nothing else. -/
theorem knotted_above {r : OwnedTarget} {a : Prebuilt} {k : Identity}
    (stands : knotted.Substitutes (prebuilt "App") r a)
    (path : Relation.TransGen knotted.PointsTo r.identity k) : k = (tangledId "Kit").identity := by
  -- The application has one edge, and the library has none.
  have named : r.identity = (tangledId "App").identity := by
    have only : ∀ r ∈ knotted.allTargets.toList, ((prebuilt "App").get? r.name).isSome = true →
        r.identity = (tangledId "App").identity := by decide
    exact only r stands.1 (Option.isSome_of_eq_some stands.2.2)
  have step : ∀ id b, knotted.PointsTo id.identity b →
      ∃ edge ∈ knotted.targetEdges id, edge.identity = b := by
    intro id b next
    rw [← Workspace.leads_eq_pointsTo] at next
    obtain ⟨edge, member, t, found, rfl⟩ := Workspace.leads_iff.mp next
    exact ⟨edge, member, (knotted_consistent.tidy edge t found).symm⟩
  rw [named] at path
  induction path with
  | single next =>
    obtain ⟨edge, member, rfl⟩ := step _ _ next
    have edges : knotted.targetEdges (tangledId "App") = [tangledId "Kit"] := rfl
    rw [edges, List.mem_singleton] at member
    rw [member]
  | tail _ next ih =>
    rw [ih] at next
    obtain ⟨edge, member, rfl⟩ := step _ _ next
    have edges : knotted.targetEdges (tangledId "Kit") = [] := rfl
    rw [edges] at member
    cases member

end Sample

namespace StandardPass

/-- Two libraries that need each other are pruned, though nothing but the application is replaced,
and this does not lead to them. -/
theorem caching_prunes_unrelated : Sample.knotted.KeyConsistent ∧
    ((caching (Sample.prebuilt "App")).run Sample.knotted {}).result = .ok Sample.knottedOutcome ∧
    ∃ t ∈ Sample.knotted.owned, t.target.pruned = false ∧
      (∀ a, ¬ Sample.knotted.Substitutes (Sample.prebuilt "App") t a) ∧
      (∃ t' ∈ Sample.knottedOutcome.workspace.owned,
        t'.identity = t.identity ∧ t'.target.pruned = true) ∧
      ¬ ∃ r a, Sample.knotted.Substitutes (Sample.prebuilt "App") r a ∧
        TransGen Sample.knotted.PointsTo r.identity t.identity := by
  -- The library is found by evaluation; that no path leads to it from a replaced target is not
  -- decidable as it stands, so it comes from the list of all that lies below one.
  obtain ⟨t, member, named, live, missing, dropped⟩ : ∃ t ∈ Sample.knotted.owned,
      t.identity = (Sample.tangledId "Core").identity ∧ t.target.pruned = false ∧
        (Sample.prebuilt "App").get? t.name = none ∧
        ∃ t' ∈ Sample.knottedOutcome.workspace.owned,
          t'.identity = t.identity ∧ t'.target.pruned = true := by decide
  refine ⟨Sample.knotted_consistent, Sample.run_knotted, t, member, live, fun a stands => ?_,
    dropped, fun ⟨r, a, stands, path⟩ => ?_⟩
  · simp [stands.2.2] at missing
  · have reached := Sample.knotted_above stands path
    rw [named] at reached
    exact absurd reached (by decide)

/-- Of the targets that are pruned, one library is needed by the application, and another is below a
loop of live targets that no root leads to. -/
theorem caching_prunes_dependents_of_sample : Sample.knotted.KeyConsistent ∧
    ((caching (Sample.prebuilt "App")).run Sample.knotted {}).result = .ok Sample.knottedOutcome ∧
    ∃ t ∈ Sample.knotted.owned, t.identity = (Sample.tangledId "Core").identity ∧
      ∃ k, TransGen Sample.knotted.PointsLive k k ∧
        ReflTransGen Sample.knotted.PointsLive k t.identity := by
  -- The theorem leaves two reasons for the pruning; the first is excluded since nothing replaced
  -- leads to the library.
  obtain ⟨t, member, named, live, missing, t', member', same, dropped⟩ :
      ∃ t ∈ Sample.knotted.owned, t.identity = (Sample.tangledId "Core").identity ∧
        t.target.pruned = false ∧ (Sample.prebuilt "App").get? t.name = none ∧
        ∃ t' ∈ Sample.knottedOutcome.workspace.owned,
          t'.identity = t.identity ∧ t'.target.pruned = true := by decide
  have kept : ∀ a, ¬ Sample.knotted.Substitutes (Sample.prebuilt "App") t a := fun a stands => by
    simp [stands.2.2] at missing
  refine ⟨Sample.knotted_consistent, Sample.run_knotted, t, member, named, ?_⟩
  rcases caching_prunes_dependents Sample.knotted_consistent Sample.run_knotted t member live kept
    t' member' same dropped with ⟨r, a, stands, path⟩ | ⟨_, looped⟩
  · have reached := Sample.knotted_above stands path
    rw [named] at reached
    exact absurd reached (by decide)
  · exact looped

end StandardPass

namespace StandardPass

variable {w : Workspace} {l : Ledger} {table : ArtifactTable} {o : Outcome}

/-- Where caching succeeds on a workspace whose keys are consistent, whatever is pruned there, each
target that it leaves unpruned is a root or a direct dependency of another target, which is left
unpruned too, or was pruned before and is one that a root leads to. It may be one that depends on
itself where nothing is replaced, and what keeps it may be pruned where live targets depend on
pruned ones. -/
theorem caching_leaves_consumed (consistent : w.KeyConsistent)
    (ran : ((caching table).run w l).result = .ok o) :
    ∀ t ∈ o.workspace.owned, t.target.pruned = false → w.IsRoot l t.identity ∨
      ∃ u ∈ o.workspace.owned, t ∈ (o.workspace.directDependencies u.id).toList ∧
        (u.target.pruned = false ∧
            (u.identity = t.identity → ∀ r a, ¬ w.Substitutes table r a) ∨
          u.identity ≠ t.identity ∧ ¬ w.Sustained ∧
            (∃ v ∈ w.owned, v.identity = u.identity ∧ v.target.pruned = true) ∧
            ∃ root, w.IsRoot l root ∧ o.workspace.Lives root ∧
              ReflTransGen o.workspace.PointsTo root u.identity) := by
  obtain ⟨w', l', done, rfl⟩ := run_caching_eq_ok.mp ran
  intro t member live
  have tidy := consistent.tidy
  have narrow := Workspace.narrows_of_substitute done
  have tidy' : w'.Tidy := tidy.of_outline narrow.outline
  rcases tidy.left_by_substitute done ((tidy'.lives_iff member).mpr live) with
    isRoot | ⟨a, next, kept⟩
  · exact .inl isRoot
  have direct : ∀ u : OwnedTarget, u.identity = a → t ∈ (w'.directDependencies u.id).toList := by
    rintro u rfl
    rw [← Workspace.leads_eq_pointsTo, Workspace.leads_iff_mem] at next
    obtain ⟨d, given, same⟩ := List.mem_map.mp next
    have found : d ∈ w'.owned := w'.mem_owned_of_mem_directDependencies given
    rwa [← tidy'.eq_of_identity found member same]
  rcases kept with ⟨lives, alone⟩ | ⟨other, passive, ⟨v, given, rfl⟩, root, isRoot, left, path⟩
  · obtain ⟨u, also, rfl⟩ := tidy'.exists_owned_of_lives lives
    refine .inr ⟨u, also, direct u rfl, .inl ⟨(tidy'.lives_iff also).mp lives, ?_⟩⟩
    intro same r a stands
    have replaced : (⟨r.id, a⟩ : Replacement) ∈ w.replaceable table :=
      Workspace.mem_replaceable.mpr ⟨r, a, stands, rfl⟩
    rw [alone same] at replaced
    cases replaced
  · obtain ⟨u, also, outline⟩ := Workspace.exists_mem_owned_of_outline narrow.outline.symm given
    have same : u.identity = v.identity :=
      congrArg TargetId.identity (OwnedTarget.id_of_outline outline.symm)
    have before : v.target.pruned = true := by
      rwa [tidy.lives_iff given, Bool.not_eq_false] at passive
    -- In a sustained workspace, what a root leads to is live.
    have unsustained : ¬ w.Sustained := by
      intro sustained
      obtain ⟨id, live, rfl⟩ := isRoot.1
      rw [← Workspace.leads_eq_pointsTo] at path
      exact passive (sustained.live_of_leads tidy live (narrow.leads path))
    rw [← same] at other path
    exact .inr ⟨u, also, direct u same, .inr ⟨other, unsustained, ⟨v, given, same.symm, before⟩,
      root, isRoot, left, path⟩⟩

end StandardPass

namespace Sample

/-- The application and one library need another library, the application by way of a third, which
is pruned. -/
def bypassed : Workspace where
  -- The way to one library goes through a pruned one.
  projects := (tangled.modifyTarget (tangledId "Net") fun t => { t with pruned := true }).projects
  dependencies := .ofList [(.target "App" ⟨"/A"⟩, .ofList [.target "Net" ⟨"/A"⟩]),
    (.target "Kit" ⟨"/A"⟩, .ofList [.target "Core" ⟨"/A"⟩]),
    (.target "Net" ⟨"/A"⟩, .ofList [.target "Core" ⟨"/A"⟩])]

/-- The workspace with the live one of the two consumers replaced. -/
def bypassedReplaced : Workspace :=
  (bypassed.replaceable (prebuilt "Kit")).foldl Workspace.replace bypassed

/-- What is found below the application, the pruned library included. -/
def bypassedOrder : List OwnedTarget :=
  -- What is needed comes first.
  ["Core", "Net", "App"].filterMap fun name => bypassedReplaced.ownedTarget? (tangledId name)

/-- What caching the one consumer makes of it. -/
def bypassedOutcome : Outcome where
  workspace := bypassedReplaced.keepOnly (.collect bypassedOrder)
  ledger := (bypassed.replaceable (prebuilt "Kit")).foldl Ledger.recordReplacement {}

/-- The search passes through the pruned library. -/
theorem run_bypassed : ((StandardPass.caching (prebuilt "Kit")).run bypassed {}).result =
    .ok bypassedOutcome := by
  -- The closure of the roots that are left is given and confirmed by evaluation.
  have ended : bypassedReplaced.followed (bypassedReplaced.liveSources (bypassed.liveRoots {})) 20 =
      some (.ok bypassedOrder) := rfl
  exact StandardPass.run_caching_eq_ok.mpr ⟨_, _, Workspace.substitute_of_followed rfl ended, rfl⟩

/-- A library that needs itself. -/
def selfish : Workspace where
  -- Its only consumer is itself, so it is no root.
  projects := tangled.projects
  dependencies := .ofList [(.target "Core" ⟨"/A"⟩, .ofList [.target "Core" ⟨"/A"⟩])]

end Sample

namespace Workspace

/-- A target that a live one depends on directly is no root where nothing is requested. -/
theorem Tidy.not_isRoot {w : Workspace} {l : Ledger} (tidy : w.Tidy) {u : OwnedTarget}
    {k : Identity} (unasked : l.requested.toList = []) (member : u ∈ w.owned)
    (live : u.target.pruned = false)
    (next : k ∈ (w.directDependencies u.id).toList.map OwnedTarget.identity) : ¬ w.IsRoot l k := by
  -- A root is free of live targets that depend on it, or it was asked for.
  rintro ⟨_, free | ⟨id, _, asked⟩⟩
  · refine free u.identity ((tidy.lives_iff member).mpr live) ?_
    rwa [← leads_eq_pointsTo, leads_iff_mem]
  · simp [Ledger.isRequested, SortedSet.contains, unasked] at asked

end Workspace

namespace Sample

/-- The keys are consistent. -/
theorem bypassed_consistent : bypassed.KeyConsistent :=
  -- Both conditions are decided for a fixed workspace.
  ⟨by decide, by decide⟩

/-- A library is left that is no root, and no target that is left depends on it. -/
theorem exists_bypassed : ∃ t ∈ bypassedOutcome.workspace.owned, t.target.pruned = false ∧
    ¬ bypassed.IsRoot {} t.identity ∧ ∀ u ∈ bypassedOutcome.workspace.owned,
      u.target.pruned = false → t ∉ (bypassedOutcome.workspace.directDependencies u.id).toList := by
  -- Being no root is said of all targets there are, so it is drawn from one live target that
  -- depends on the library; everything else is decided.
  obtain ⟨t, member, live, alone, u, given, running, next⟩ :
      ∃ t ∈ bypassedOutcome.workspace.owned, t.target.pruned = false ∧
        (∀ u ∈ bypassedOutcome.workspace.owned, u.target.pruned = false → t.identity ∉
          (bypassedOutcome.workspace.directDependencies u.id).toList.map OwnedTarget.identity) ∧
        ∃ u ∈ bypassed.owned, u.target.pruned = false ∧
          t.identity ∈ (bypassed.directDependencies u.id).toList.map OwnedTarget.identity := by
    decide
  exact ⟨t, member, live, bypassed_consistent.tidy.not_isRoot rfl given running next,
    fun u also left direct => alone u also left (List.mem_map_of_mem direct)⟩

end Sample

namespace StandardPass

/-- A library is left that only a replaced target and a pruned one need; and one that only needs
itself is left where nothing is replaced. -/
theorem caching_leaves_unconsumed :
    (Sample.bypassed.KeyConsistent ∧
      ((caching (Sample.prebuilt "Kit")).run Sample.bypassed {}).result =
        .ok Sample.bypassedOutcome ∧
      ∃ t ∈ Sample.bypassedOutcome.workspace.owned, t.target.pruned = false ∧
        ¬ Sample.bypassed.IsRoot {} t.identity ∧
        ∀ u ∈ Sample.bypassedOutcome.workspace.owned, u.target.pruned = false →
          t ∉ (Sample.bypassedOutcome.workspace.directDependencies u.id).toList) ∧
    Sample.selfish.KeyConsistent ∧
      ((caching {}).run Sample.selfish {}).result = .ok ⟨Sample.selfish, [], {}⟩ ∧
      ∃ t ∈ Sample.selfish.owned, t.target.pruned = false ∧
        ¬ Sample.selfish.IsRoot {} t.identity ∧
        ∀ u ∈ Sample.selfish.owned, u.target.pruned = false → u.identity ≠ t.identity →
          t ∉ (Sample.selfish.directDependencies u.id).toList := by
  -- In the first workspace what needs the library was pruned before or is replaced; in the second
  -- nothing is replaced, and the run returns before any root is asked for.
  have selfish : Sample.selfish.KeyConsistent := ⟨by decide, by decide⟩
  obtain ⟨t, member, live, alone, next⟩ :
      ∃ t ∈ Sample.selfish.owned, t.target.pruned = false ∧
        (∀ u ∈ Sample.selfish.owned, u.target.pruned = false → u.identity ≠ t.identity →
          t.identity ∉ (Sample.selfish.directDependencies u.id).toList.map OwnedTarget.identity) ∧
        t.identity ∈ (Sample.selfish.directDependencies t.id).toList.map OwnedTarget.identity := by
    decide
  exact ⟨⟨Sample.bypassed_consistent, Sample.run_bypassed, Sample.exists_bypassed⟩, selfish, rfl, t,
    member, live, selfish.tidy.not_isRoot rfl member live next,
    fun u also left other direct => alone u also left other (List.mem_map_of_mem direct)⟩

/-- The library that is left depends on the side of a pruned target, which the application leads
to. -/
theorem caching_leaves_consumed_of_sample : Sample.bypassed.KeyConsistent ∧
    ((caching (Sample.prebuilt "Kit")).run Sample.bypassed {}).result =
      .ok Sample.bypassedOutcome ∧
    ∃ t ∈ Sample.bypassedOutcome.workspace.owned, t.target.pruned = false ∧
      ∃ u ∈ Sample.bypassedOutcome.workspace.owned,
        t ∈ (Sample.bypassedOutcome.workspace.directDependencies u.id).toList ∧
        (∃ v ∈ Sample.bypassed.owned, v.identity = u.identity ∧ v.target.pruned = true) ∧
        ∃ root, Sample.bypassed.IsRoot {} root ∧ Sample.bypassedOutcome.workspace.Lives root ∧
          ReflTransGen Sample.bypassedOutcome.workspace.PointsTo root u.identity := by
  -- Of the three reasons that the theorem leaves, no root and no live target needs the library, so
  -- the third remains.
  obtain ⟨t, member, live, unrooted, alone⟩ := Sample.exists_bypassed
  refine ⟨Sample.bypassed_consistent, Sample.run_bypassed, t, member, live, ?_⟩
  rcases caching_leaves_consumed Sample.bypassed_consistent Sample.run_bypassed t member live with
    isRoot | ⟨u, also, direct, ⟨left, _⟩ | ⟨_, _, pruned, below⟩⟩
  · exact absurd isRoot unrooted
  · exact absurd direct (alone u also left)
  · exact ⟨u, also, direct, pruned, below⟩

end StandardPass

end BuildGraph
