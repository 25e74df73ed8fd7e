import Mathlib.Data.List.Pairwise
import BuildGraph.Proofs.Collections.Reordering
import BuildGraph.Proofs.Rewiring
import BuildGraph.Proofs.Spelling.Records
import BuildGraph.Proofs.Trace

/-! A substitution takes the edges to all replaced targets away and puts those to their artefacts in
their places, and comes to the same in whatever order the targets are replaced. -/

namespace BuildGraph

namespace Dependency

variable {node other : Dependency} {id k : TargetId}

/-- Whether a node stands for a target or for what that produces. -/
def concerns (id : TargetId) (node : Dependency) : Bool :=
  -- The two kinds of nodes are taken out together.
  node.isTarget id || node.isOutputOf id

/-- Of nodes that compare equal, both concern a target or neither does. -/
theorem concerns_congr (same : compare node other = .eq) (id : TargetId) :
    node.concerns id = other.concerns id := by
  -- Both ways to concern a target are kept.
  rw [concerns, concerns, isTarget_congr same, isOutputOf_congr same]

/-- No node concerns two targets. -/
theorem identity_of_concerns (one : node.concerns id = true) (also : node.concerns k = true) :
    id.identity = k.identity := by
  simp only [concerns, Bool.or_eq_true] at one also
  -- A node that stands for a target is no output.
  have exclusive : ∀ {a b : TargetId}, node.isTarget a = true → ¬ node.isOutputOf b = true :=
    fun target output => by simp [isTarget_of_isOutputOf output] at target
  rcases one with target | output
  · rcases also with target' | output'
    · obtain ⟨named, names, same⟩ := isTarget_iff.mp target
      obtain ⟨named', names', same'⟩ := isTarget_iff.mp target'
      rw [names] at names'
      rw [← same, ← same', Option.some.inj names']
    · exact absurd output' (exclusive target)
  · rcases also with target' | output'
    · exact absurd output (exclusive target')
    · exact identity_of_isOutputOf output output'

/-- An artefact concerns no target. -/
theorem concerns_artifact (a : Prebuilt) (id : TargetId) : a.dependency.concerns id = false := by
  -- An artefact is neither the node of a target nor its output.
  rw [concerns, a.isTarget_dependency, a.isOutputOf_dependency]
  rfl

/-- Some nodes concern a target exactly when they contain one that does, in whatever spelling. -/
theorem any_concerns_iff {nodes : SortedSet Dependency} : nodes.toList.any (concerns id) = true ↔
    ∃ node, nodes.contains node = true ∧ node.concerns id = true := by
  -- A spelling that is contained stands for a member that concerns the same.
  rw [List.any_eq_true]
  constructor
  · rintro ⟨node, member, about⟩
    exact ⟨node, SortedSet.contains_iff.mpr ⟨node, member, Std.ReflCmp.compare_self⟩, about⟩
  · rintro ⟨node, there, about⟩
    obtain ⟨held, member, same⟩ := SortedSet.contains_iff.mp there
    exact ⟨held, member, by rw [← concerns_congr same, about]⟩

end Dependency

open Dependency

namespace Dependencies

variable {k : TargetId} {node : Dependency} {nodes : SortedSet Dependency} {rs : List Replacement}

/-- Nodes with the artefact of a replacement in the place of those that concern its target, if there
are any. -/
def divert (r : Replacement) (nodes : SortedSet Dependency) : SortedSet Dependency :=
  -- This is what a redirection does to one set, without the relation around it.
  let others := nodes.filter fun node => !node.isTarget r.target && !node.isOutputOf r.target
  if others.size = nodes.size then nodes else others.insert r.artifact.dependency

/-- Redirecting a relation diverts all of its sets. -/
theorem redirect_eq (d : Dependencies) (r : Replacement) :
    d.redirect r.target r.artifact.dependency = d.map (divert r) :=
  -- Both are how redirecting is defined.
  rfl

/-- Diverted nodes contain those that do not concern the target, and the artefact if there were
others. -/
theorem contains_divert {r : Replacement} : (divert r nodes).contains node = true ↔
    (nodes.contains node = true ∧ node.concerns r.target = false) ∨
      compare node r.artifact.dependency = .eq ∧ nodes.toList.any (concerns r.target) = true := by
  -- What is dropped is what concerns the target.
  have spared : (fun node : Dependency => !node.isTarget r.target && !node.isOutputOf r.target) =
      fun node => !node.concerns r.target := by
    funext node
    rw [concerns, Bool.not_or]
  have others : (nodes.filter fun node => !node.concerns r.target).contains node = true ↔
      nodes.contains node = true ∧ node.concerns r.target = false := by
    simp only [SortedSet.contains_iff, SortedSet.filter, List.mem_filter, Bool.not_eq_true']
    constructor
    · rintro ⟨held, ⟨member, free⟩, same⟩
      exact ⟨⟨held, member, same⟩, by rw [concerns_congr same, free]⟩
    · rintro ⟨⟨held, member, same⟩, free⟩
      exact ⟨held, ⟨member, by rw [← concerns_congr same, free]⟩, same⟩
  simp only [divert, spared]
  split
  · -- Nothing was dropped, so that nothing that is there concerns the target.
    rename_i all
    have free := List.length_filter_eq_length_iff.mp all
    have none : nodes.toList.any (concerns r.target) = false := by
      simpa only [List.any_eq_false, Bool.not_eq_true', Bool.not_eq_true] using free
    have whole : nodes.filter (fun node => !node.concerns r.target) = nodes :=
      SortedSet.ext (List.filter_eq_self.mpr free)
    rw [whole] at others
    simp only [none, Bool.false_eq_true, and_false, or_false]
    exact others
  · rename_i some
    have found : nodes.toList.any (concerns r.target) = true := by
      by_contra none
      refine some (List.length_filter_eq_length_iff.mpr ?_)
      simpa only [List.any_eq_false, Bool.not_eq_true', Bool.not_eq_true] using none
    rw [SortedSet.contains_insert, others, found, and_iff_left rfl, or_comm]

/-- Diverting nodes from one target leaves those that concern another. -/
theorem any_divert {r : Replacement} (apart : r.target.identity ≠ k.identity) :
    (divert r nodes).toList.any (concerns k) = nodes.toList.any (concerns k) := by
  rw [Bool.eq_iff_iff, any_concerns_iff, any_concerns_iff]
  simp only [contains_divert]
  constructor
  · rintro ⟨node, ⟨before, _⟩ | ⟨artifact, _⟩, about⟩
    · exact ⟨node, before, about⟩
    · -- The artefact concerns no target.
      rw [concerns_congr artifact, concerns_artifact] at about
      cases about
  · rintro ⟨node, before, about⟩
    have free : node.concerns r.target = false :=
      Bool.eq_false_iff.mpr fun also => apart (identity_of_concerns also about)
    exact ⟨node, .inl ⟨before, free⟩, about⟩

/-- Nodes diverted from one target after another. -/
def divertAll (rs : List Replacement) (nodes : SortedSet Dependency) : SortedSet Dependency :=
  -- A later replacement sees what an earlier one has put in.
  rs.foldl (fun nodes r => divert r nodes) nodes

/-- Nodes diverted from several targets contain those that concern none of them, and the artefacts
of those that some node concerned. -/
theorem contains_divertAll
    (apart : rs.Pairwise fun r r' => r.target.identity ≠ r'.target.identity) :
    (divertAll rs nodes).contains node = true ↔
      (nodes.contains node = true ∧ ∀ r ∈ rs, node.concerns r.target = false) ∨
        ∃ r ∈ rs, compare node r.artifact.dependency = .eq ∧
          nodes.toList.any (concerns r.target) = true := by
  -- What is diverted first neither takes away nor brings in what concerns the others.
  induction rs generalizing nodes with
  | nil => simp [divertAll]
  | cons first rest ih =>
    obtain ⟨others, apart⟩ := List.pairwise_cons.mp apart
    have still : (∃ r ∈ rest, compare node r.artifact.dependency = .eq ∧
        (divert first nodes).toList.any (concerns r.target) = true) ↔
        ∃ r ∈ rest, compare node r.artifact.dependency = .eq ∧
          nodes.toList.any (concerns r.target) = true :=
      exists_congr fun r => and_congr_right fun later => by rw [any_divert (others r later)]
    have kept : compare node first.artifact.dependency = .eq →
        ∀ r ∈ rest, node.concerns r.target = false := fun same r _ => by
      rw [concerns_congr same, concerns_artifact]
    have step : (divertAll (first :: rest) nodes).contains node =
        (divertAll rest (divert first nodes)).contains node := rfl
    rw [step, ih apart, still, contains_divert]
    simp only [List.mem_cons, forall_eq_or_imp, exists_eq_or_imp]
    constructor
    · rintro (⟨⟨before, free⟩ | artifact, rest_free⟩ | later)
      · exact .inl ⟨before, free, rest_free⟩
      · exact .inr (.inl artifact)
      · exact .inr (.inr later)
    · rintro (⟨before, free, rest_free⟩ | artifact | later)
      · exact .inl ⟨.inl ⟨before, free⟩, rest_free⟩
      · exact .inl ⟨.inr artifact, kept artifact.1⟩
      · exact .inr later

/-- Nodes that concern none of several targets stay, in their spellings, when nodes are diverted
from these. -/
theorem mem_divertAll_of_free (member : node ∈ nodes.toList)
    (free : ∀ r ∈ rs, node.concerns r.target = false) : node ∈ (divertAll rs nodes).toList := by
  -- The induction is on the replacements, each of which takes away only what concerns its target.
  induction rs generalizing nodes with
  | nil => exact member
  | cons first rest ih =>
    have spared : (!node.isTarget first.target && !node.isOutputOf first.target) = true := by
      rw [← Bool.not_or]
      exact (Bool.not_eq_true' _).mpr (free first (.head _))
    have step : node ∈ (divert first nodes).toList := by
      rw [divert]
      split
      · exact member
      · exact SortedSet.mem_place_of_mem (List.mem_filter.mpr ⟨member, spared⟩)
    exact ih step fun r later => free r (.tail _ later)

/-- Nothing is put in the place of nothing. -/
theorem divertAll_empty (rs : List Replacement) : divertAll rs {} = {} := by
  -- The induction is on the replacements, none of which finds anything to take away.
  induction rs with
  | nil => rfl
  | cons r rest ih => exact ih

end Dependencies

namespace Workspace

variable {w : Workspace} {table : ArtifactTable}

/-- Replacing several targets diverts all sets of dependencies. -/
theorem dependencies_replaceAll_eq (w : Workspace) (rs : List Replacement) :
    (rs.foldl replace w).dependencies = w.dependencies.map (Dependencies.divertAll rs) := by
  -- The induction is on the replacements; diverting twice is diverting once by both.
  induction rs generalizing w with
  | nil => exact (SortedMap.map_eq_self fun _ _ _ => rfl).symm
  | cons r rest ih =>
    have step : (w.replace r).dependencies = w.dependencies.map (Dependencies.divert r) :=
      Dependencies.redirect_eq w.dependencies r
    rw [List.foldl_cons, ih, step, SortedMap.map_map]
    rfl

/-- Replacing several targets diverts what a node depends on. -/
theorem held_replaceAll (w : Workspace) (rs : List Replacement) (source : Dependency) :
    (rs.foldl replace w).dependencies.held source =
      Dependencies.divertAll rs (w.dependencies.held source) := by
  -- Where nothing is held, nothing is diverted.
  rw [dependencies_replaceAll_eq]
  exact Dependencies.held_map (Dependencies.divertAll_empty rs) w.dependencies source

/-- The artefact `a` is to stand in for `t`, which is not pruned and has the name that the artefact
is given for. -/
def Substitutes (w : Workspace) (table : ArtifactTable) (t : OwnedTarget) (a : Prebuilt) : Prop :=
  -- The table is asked for the name, so targets of one name share an artefact.
  t ∈ w.allTargets.toList ∧ t.target.pruned = false ∧ table.get? t.name = some a

/-- The replacements are what is to stand in for targets. -/
theorem mem_replaceable {r : Replacement} :
    r ∈ w.replaceable table ↔ ∃ t a, w.Substitutes table t a ∧ r = ⟨t.id, a⟩ := by
  -- The live targets are gone through, and those with an artefact are taken.
  simp only [replaceable, liveTargets, SortedSet.filter, List.mem_filterMap, List.mem_filter,
    Bool.not_eq_true', Option.map_eq_some_iff, Substitutes]
  constructor
  · rintro ⟨t, ⟨listed, live⟩, a, cached, rfl⟩
    exact ⟨t, a, ⟨listed, live, cached⟩, rfl⟩
  · rintro ⟨t, a, ⟨listed, live, cached⟩, rfl⟩
    exact ⟨t, ⟨listed, live⟩, a, cached, rfl⟩

/-- Something tells the targets of any two replacements apart. -/
theorem replaceable_apart (w : Workspace) (table : ArtifactTable) :
    (w.replaceable table).Pairwise fun r r' => r.target.identity ≠ r'.target.identity := by
  -- Targets are listed once, and each has one artefact at most.
  refine SortedSet.apart_filterMap (fun t r named => ?_) w.liveTargets
  obtain ⟨a, _, rfl⟩ := Option.map_eq_some_iff.mp named
  rfl

end Workspace

/-- A node is that of the target `t`, or one for what that produces, however it is linked. -/
def OwnedTarget.Owns (t : OwnedTarget) (node : Dependency) : Prop :=
  -- The way of linking is left open, since an output is replaced in either way.
  compare (.target t.name t.path) node = .eq ∨
    ∃ linking, compare (.foreignOutput t.name t.path linking) node = .eq

/-- What concerns a target is its node, and what it produces. -/
theorem OwnedTarget.owns_iff {t : OwnedTarget} {node : Dependency} :
    t.Owns node ↔ node.concerns t.id = true := by
  -- The one way to own a node is that of targets, and the other that of outputs.
  rw [concerns, Bool.or_eq_true, isTarget_iff_compare, isOutputOf_iff_compare]
  rfl

/-- Dependencies and a ledger are those of a workspace and of an earlier ledger once artefacts of a
table stand in for live targets. -/
structure Workspace.Substituted (w : Workspace) (table : ArtifactTable) (l : Ledger)
    (d : Dependencies) (l' : Ledger) : Prop where
  keys : d.keys = w.dependencies.keys
  nodes : ∀ source node, (d.held source).contains node = true ↔
    ((w.dependencies.held source).contains node = true ∧
      ∀ t a, w.Substitutes table t a → ¬ t.Owns node) ∨
    ∃ t a, w.Substitutes table t a ∧ compare node a.dependency = .eq ∧
      ∃ other ∈ (w.dependencies.held source).toList, t.Owns other
  -- What stays does so in its spelling.
  kept : ∀ source, ∀ node ∈ (w.dependencies.held source).toList,
    (∀ t a, w.Substitutes table t a → ¬ t.Owns node) → node ∈ (d.held source).toList
  noted : ∀ t a, w.Substitutes table t a → ∀ id, id.identity = t.identity →
    l'.replacementFor? id = some ⟨t.id, a⟩
  others : ∀ id, (∀ t a, w.Substitutes table t a → t.identity ≠ id.identity) →
    l'.replacementFor? id = l.replacementFor? id
  requested : l'.requested = l.requested

namespace Workspace

variable {w : Workspace} {l : Ledger} {table : ArtifactTable} {rs : List Replacement}

/-- Something tells the targets of the replacements apart in any order. -/
theorem apart_of_perm (same : rs.Perm (w.replaceable table)) :
    rs.Pairwise fun r r' => r.target.identity ≠ r'.target.identity :=
  -- Being apart does not depend on which of the two comes first.
  (same.pairwise_iff Ne.symm).mpr (w.replaceable_apart table)

/-- In whatever order the replacements are noted, each is found for its target, and for other
targets nothing has changed. -/
theorem replacementFor?_recordAll (l : Ledger) (same : rs.Perm (w.replaceable table)) :
    (∀ r ∈ rs, ∀ id, id.identity = r.target.identity →
      (rs.foldl Ledger.recordReplacement l).replacementFor? id = some r) ∧
    ∀ id, (∀ r ∈ rs, r.target.identity ≠ id.identity) →
      (rs.foldl Ledger.recordReplacement l).replacementFor? id = l.replacementFor? id := by
  have apart := apart_of_perm same
  have symmetric : Std.Symm fun r r' : Replacement => r.target.identity ≠ r'.target.identity :=
    ⟨fun _ _ => Ne.symm⟩
  constructor
  · intro r given id own
    have distinct : rs.Nodup := apart.imp fun {a b} other also =>
      other (congrArg (fun r => r.target.identity) also)
    refine foldl_of_one (fun l => Ledger.replacementFor? l id) (fun _ => some r) distinct given
      (fun l => ?_) (fun other there elsewhere l => ?_) l
    · rw [Ledger.replacementFor?_recordReplacement, if_pos own.symm]
    · -- Another replacement is that of another target.
      have unlike : other.target.identity ≠ id.identity := by
        rw [own]
        exact apart.forall there given elsewhere
      rw [Ledger.replacementFor?_recordReplacement, if_neg unlike]
  · intro id unlike
    refine foldl_of_others (fun l => Ledger.replacementFor? l id) (fun r given l => ?_) l
    rw [Ledger.replacementFor?_recordReplacement, if_neg (unlike r given)]

/-- In whatever order the targets are replaced, artefacts stand in for them in the end. -/
theorem substituted_of_perm (l : Ledger) (same : rs.Perm (w.replaceable table)) :
    w.Substituted table l (rs.foldl replace w).dependencies
      (rs.foldl Ledger.recordReplacement l) := by
  have given : ∀ r, r ∈ rs ↔ ∃ t a, w.Substitutes table t a ∧ r = ⟨t.id, a⟩ := fun r =>
    same.mem_iff.trans mem_replaceable
  obtain ⟨noted, others⟩ := replacementFor?_recordAll l same
  -- A node concerns none of the replaced targets exactly when it belongs to none.
  have free : ∀ node, (∀ r ∈ rs, node.concerns r.target = false) ↔
      ∀ t a, w.Substitutes table t a → ¬ t.Owns node := by
    intro node
    simp only [given, OwnedTarget.owns_iff, Bool.not_eq_true]
    constructor
    · exact fun none t a stands => none ⟨t.id, a⟩ ⟨t, a, stands, rfl⟩
    · rintro none _ ⟨t, a, stands, rfl⟩
      exact none t a stands
  refine ⟨?_, fun source node => ?_, fun source node member unowned => ?_,
    fun t a stands id own => ?_, fun id unlike => ?_, requested_recordAll l rs⟩
  · rw [dependencies_replaceAll_eq]
    simp [SortedMap.keys, SortedMap.map]
  · rw [held_replaceAll, Dependencies.contains_divertAll (apart_of_perm same), free]
    simp only [given, List.any_eq_true, OwnedTarget.owns_iff]
    refine or_congr_right ⟨?_, ?_⟩
    · rintro ⟨_, ⟨t, a, stands, rfl⟩, artifact, found⟩
      exact ⟨t, a, stands, artifact, found⟩
    · rintro ⟨t, a, stands, artifact, found⟩
      exact ⟨⟨t.id, a⟩, ⟨t, a, stands, rfl⟩, artifact, found⟩
  · rw [held_replaceAll]
    exact Dependencies.mem_divertAll_of_free member ((free node).mpr unowned)
  · exact noted ⟨t.id, a⟩ ((given _).mpr ⟨t, a, stands, rfl⟩) id own
  · refine others id fun r there => ?_
    obtain ⟨t, a, stands, rfl⟩ := (given r).mp there
    exact unlike t a stands

/-- Up to spelling, artefacts of a table stand in for targets in one relation only. -/
theorem Substituted.alike {d d' : Dependencies} {l' l'' : Ledger}
    (substituted : w.Substituted table l d l') (also : w.Substituted table l d' l'') :
    Alike d d' := by
  have keys : d.keys = d'.keys := substituted.keys.trans also.keys.symm
  -- Both relations have the same entries, and these contain the same nodes.
  have nodes : ∀ source, Alike (d.held source) (d'.held source) := fun source =>
    SortedSet.alike_of_contains fun node => by
      rw [Bool.eq_iff_iff, substituted.nodes source node, also.nodes source node]
  have own : ∀ d : Dependencies, d.entries = d.keys.map fun k => (k, d.held k) := by
    intro d
    rw [SortedMap.keys, List.map_map]
    refine ((List.map_congr_left fun e member => ?_).trans (List.map_id _)).symm
    simp [Dependencies.held, SortedMap.get?_of_mem member]
  refine SortedMap.alike_iff.mpr ?_
  rw [own d, own d', keys, List.forall₂_map_left_iff, List.forall₂_map_right_iff]
  exact List.forall₂_same.mpr fun k _ => alike_pair_iff.mpr ⟨Dependency.alike_refl k, nodes k⟩

end Workspace

namespace StandardPass

/-- Where caching succeeds, artefacts stand in for the live targets that it has them for: no node
gains or loses its entry, each set loses the nodes of these targets and what they produce, and gets
the artefacts of those that it had such nodes of; each replacement is noted for its target, and
other notes are as before. All of it comes out the same in whatever order the targets are replaced,
and where there are none, nothing changes. -/
theorem caching_redirects_edges {w : Workspace} {l : Ledger} {table : ArtifactTable} {o : Outcome}
    (ran : ((caching table).run w l).result = .ok o) :
    w.Substituted table l o.workspace.dependencies o.ledger ∧ o.sideEffects = [] ∧
    (∀ rs : List Replacement, rs.Perm (w.replaceable table) →
      w.Substituted table l (rs.foldl Workspace.replace w).dependencies
        (rs.foldl Ledger.recordReplacement l) ∧
      ((rs.foldl Workspace.replace w).dependencies == o.workspace.dependencies) = true) ∧
    ((∀ t a, ¬ w.Substitutes table t a) → o = ⟨w, [], l⟩) := by
  obtain ⟨w', l', done, rfl⟩ := run_caching_eq_ok.mp ran
  -- What the pass does comes to replacing the targets in order.
  have substituted : w.Substituted table l w'.dependencies l' := by
    rw [Workspace.dependencies_substitute done, Workspace.ledger_substitute done]
    exact Workspace.substituted_of_perm l (.refl _)
  refine ⟨substituted, rfl, fun rs same => ?_, fun none => ?_⟩
  · have reordered := Workspace.substituted_of_perm l same
    exact ⟨reordered, reordered.alike substituted⟩
  · have empty : w.replaceable table = [] := by
      refine List.eq_nil_iff_forall_not_mem.mpr fun r given => ?_
      obtain ⟨t, a, stands, _⟩ := Workspace.mem_replaceable.mp given
      exact none t a stands
    rcases Workspace.substitute_eq_ok.mp done with ⟨_, rfl, rfl⟩ | ⟨some, _⟩
    · rfl
    · exact absurd empty some

end StandardPass

namespace Sample

/-- The small project, with a library that both other targets need and an output that is linked. -/
def shared : Workspace where
  -- One target occurs in two sets, and an output occurs beside its target.
  projects := workspace.projects
  dependencies := .ofList [
    (.target "App" project.path, .ofList [.target "Core" project.path, .target "Kit" project.path,
      .foreignOutput "Kit" project.path .static, .sdk "z"]),
    (.target "Kit" project.path, .ofList [.target "Core" ⟨"/A/"⟩])]

/-- One artefact in two spellings, for two targets. -/
def sharedArtifacts : ArtifactTable :=
  -- The two spellings compare equal, so a set holds only one of them.
  .ofList [("Core", ⟨⟨"/cache/All"⟩, .framework, .dynamic⟩),
    ("Kit", ⟨⟨"/cache/./All"⟩, .framework, .dynamic⟩)]

/-- The small project with both of these targets replaced. -/
def exchanged : Workspace :=
  -- The replacements are made in the order of the targets.
  (shared.replaceable sharedArtifacts).foldl Workspace.replace shared

/-- What caching makes of it. -/
def exchangedOutcome : Outcome where
  -- Only the application is left to be built.
  workspace := exchanged.keepOnly (.collect (targets exchanged ["App"]))
  ledger := (shared.replaceable sharedArtifacts).foldl Ledger.recordReplacement {}

end Sample

/-- Two targets, one of which needs the other, give way to one artefact; replaced the other way
round, they leave the same relation, with the artefact in the other spelling. -/
theorem StandardPass.caching_redirects_edges_of_sample :
    ((caching Sample.sharedArtifacts).run Sample.shared {}).result = .ok Sample.exchangedOutcome ∧
    Sample.shared.Substituted Sample.sharedArtifacts {}
      Sample.exchangedOutcome.workspace.dependencies Sample.exchangedOutcome.ledger ∧
    (Sample.exchangedOutcome.workspace.dependencies.entries.map fun e => (e.1, e.2.toList)) =
      [(.target "App" ⟨"/A"⟩, [.framework ⟨"/cache/All"⟩ .dynamic, .sdk "z"]),
        (.target "Kit" ⟨"/A"⟩, [.framework ⟨"/cache/All"⟩ .dynamic])] ∧
    ∃ rs : List Replacement, rs.Perm (Sample.shared.replaceable Sample.sharedArtifacts) ∧
      ((rs.foldl Workspace.replace Sample.shared).dependencies ==
        Sample.exchangedOutcome.workspace.dependencies) = true ∧
      ((rs.foldl Workspace.replace Sample.shared).dependencies.entries.map
          fun e => (e.1, e.2.toList)) =
        [(.target "App" ⟨"/A"⟩, [.framework ⟨"/cache/./All"⟩ .dynamic, .sdk "z"]),
          (.target "Kit" ⟨"/A"⟩, [.framework ⟨"/cache/All"⟩ .dynamic])] := by
  -- The search for what is still needed lists the application.
  have ended : Sample.exchanged.followed
      (Sample.exchanged.liveSources (Sample.shared.liveRoots {})) 20 =
      some (.ok (Sample.targets Sample.exchanged ["App"])) := rfl
  have ran : ((caching Sample.sharedArtifacts).run Sample.shared {}).result =
      .ok Sample.exchangedOutcome :=
    run_caching_eq_ok.mpr ⟨_, _, Workspace.substitute_of_followed rfl ended, rfl⟩
  obtain ⟨substituted, _, reordered, _⟩ := caching_redirects_edges ran
  have reversed := (Sample.shared.replaceable Sample.sharedArtifacts).reverse_perm
  exact ⟨ran, substituted, by decide, _, reversed, (reordered _ reversed).2, by decide⟩

end BuildGraph
