import BuildGraph.Proofs.Marks
import BuildGraph.Proofs.Replacements

/-! A workspace whose foreign builds have been wired stays as it is when they are wired again, also
after selections and substitutions. -/

namespace BuildGraph

/-- A target that has been made to run a foreign build is not changed by being made to again. -/
theorem Target.aggregated_aggregated (t : Target) (name : String) (b : ForeignBuild) :
    (t.aggregated name b).aggregated name b = t.aggregated name b := by
  -- The phase that was put in front goes away and comes back, and the tag is there.
  have tags : (t.tags.insert aggregateTag).insert aggregateTag = t.tags.insert aggregateTag :=
    SortedSet.insert_eq_self (SortedSet.contains_insert.mpr (.inl Std.ReflCmp.compare_self))
  simp [aggregated, tags, ForeignBuild.phase]

/-- Whether a target has been made to run a foreign build does not depend on its being pruned. -/
theorem Target.aggregated_revived_eq {t : Target} {name : String} {b : ForeignBuild} :
    t.revived.aggregated name b = t.revived ↔ t.aggregated name b = t := by
  -- Nothing that the two sides compare depends on the flag.
  cases t
  simp [revived, aggregated]

namespace Dependency

/-- An output does not stand for a target. -/
theorem isTarget_of_isOutputOf {node : Dependency} {id k : TargetId}
    (output : node.isOutputOf id = true) : node.isTarget k = false := by
  -- Only one kind of node is an output, and it is no target.
  cases node with
  | foreignOutput name path linking => rfl
  | _ => cases output

/-- No node is the output of two targets. -/
theorem identity_of_isOutputOf {node : Dependency} {id k : TargetId}
    (output : node.isOutputOf id = true) (also : node.isOutputOf k = true) :
    id.identity = k.identity := by
  obtain ⟨owner, linking, rfl, same⟩ := isOutputOf_iff.mp output
  obtain ⟨owner', linking', nodes, same'⟩ := isOutputOf_iff.mp also
  -- A node names its owner.
  have owners : owner.identity = owner'.identity := by
    simp only [foreignOutput.injEq] at nodes
    simp only [TargetId.identity, nodes]
  rw [← same, owners, same']

end Dependency

namespace Dependencies

/-- The nodes that a node depends on. -/
def held (d : Dependencies) (source : Dependency) : SortedSet Dependency :=
  -- A node without an entry holds the empty set.
  (d.get? source).getD {}

/-- What all nodes depend on can be passed through a function that leaves nothing as it is. -/
theorem held_map {g : SortedSet Dependency → SortedSet Dependency} (empty : g {} = {})
    (d : Dependencies) (source : Dependency) : held (d.map g) source = g (d.held source) := by
  -- Nothing is held where there is no entry, and the function keeps it so.
  rw [held, held, SortedMap.get?_map]
  cases d.get? source with
  | none => exact empty.symm
  | some nodes => rfl

end Dependencies

/-- The output of the target `id` has dependencies of its own, be they none, and all that depends on
the target depends on its output. -/
structure Dependencies.Links (d : Dependencies) (id : TargetId) (output : Dependency) : Prop where
  -- Sets are looked up by nodes, in whatever spelling these are asked for.
  present : (d.get? output).isSome = true
  followed : ∀ k nodes, d.get? k = some nodes → nodes.toList.any (Dependency.isTarget id) = true →
    nodes.contains output = true

namespace Dependencies

variable {d : Dependencies} {id k : TargetId} {output other : Dependency}

/-- What is held for a node once an output has been linked. -/
theorem get?_link (d : Dependencies) (id : TargetId) (output node : Dependency) :
    (d.link id output).get? node =
      (if compare node output = .eq then some ((d.get? output).getD {}) else d.get? node).map
        fun nodes => if nodes.toList.any (Dependency.isTarget id) then nodes.insert output
          else nodes := by
  -- The set of the output is made sure of first, and then each set is looked at.
  rw [link, SortedMap.get?_map, add, SortedMap.get?_alter]
  rfl

/-- Once an output has been linked, it is. -/
theorem links_link (d : Dependencies) (id : TargetId) (output : Dependency) :
    (d.link id output).Links id output where
  -- The output is added to just the sets that it has to be in.
  present := by simp [get?_link, Std.ReflCmp.compare_self]
  followed node nodes found depends := by
    rw [get?_link] at found
    obtain ⟨before, _, rfl⟩ := Option.map_eq_some_iff.mp found
    split at depends <;> rename_i known
    · rw [if_pos known]
      exact SortedSet.contains_insert.mpr (.inl Std.ReflCmp.compare_self)
    · exact absurd depends known

/-- A linked output stays so when another output is linked. -/
theorem Links.link (links : d.Links id output) (apart : other.isTarget id = false) (k : TargetId) :
    (d.link k other).Links id output where
  present := by
    rw [get?_link, Option.isSome_map]
    split
    · rfl
    · exact links.present
  followed node nodes found depends := by
    rw [get?_link] at found
    obtain ⟨before, held, rfl⟩ := Option.map_eq_some_iff.mp found
    -- What depends on the target now did so before, since the other output is not the target.
    have already : before.toList.any (Dependency.isTarget id) = true := by
      split at depends
      · obtain ⟨member, given, here⟩ := List.any_eq_true.mp depends
        rcases SortedSet.mem_of_mem_place given with rfl | there
        · simp [apart] at here
        · exact List.any_eq_true.mpr ⟨member, there, here⟩
      · exact depends
    have contained : before.contains output = true := by
      split at held
      · cases stored : d.get? other with
        | none =>
          simp only [stored, Option.getD_none, Option.some.injEq] at held
          simp [← held] at already
        | some nodes =>
          simp only [stored, Option.getD_some, Option.some.injEq] at held
          exact held ▸ links.followed other nodes stored (held ▸ already)
      · exact links.followed node before held already
    split
    · exact SortedSet.contains_insert.mpr (.inr contained)
    · exact contained

/-- Linking an output that is linked already changes nothing. -/
theorem Links.link_eq_self (links : d.Links id output) : d.link id output = d := by
  -- The output has its entry, and every set that needs it has it.
  obtain ⟨held, found⟩ := Option.isSome_iff_exists.mp links.present
  have added : d.add output [] = d := SortedMap.alter_eq_self found rfl
  rw [Dependencies.link, added]
  refine SortedMap.map_eq_self fun node nodes stored => ?_
  split
  · rename_i depends
    exact SortedSet.insert_eq_self (links.followed node nodes stored depends)
  · rfl

/-- A set that has the output of a target keeps it when another target is taken out. -/
theorem contains_spared {nodes : SortedSet Dependency} (contained : nodes.contains output = true)
    (owned : output.isOutputOf id = true) (apart : id.identity ≠ k.identity) :
    (nodes.filter fun node => !node.isTarget k && !node.isOutputOf k).contains output = true := by
  -- The spelling that is there is an output of the same target, and of no other.
  obtain ⟨spelling, inside, same⟩ := SortedSet.contains_iff.mp contained
  have belongs : spelling.isOutputOf id = true :=
    (Dependency.isOutputOf_congr same id).symm.trans owned
  have other : spelling.isOutputOf k = false := Bool.eq_false_iff.mpr fun also =>
    apart (Dependency.identity_of_isOutputOf belongs also)
  refine SortedSet.contains_iff.mpr ⟨spelling, List.mem_filter.mpr ⟨inside, ?_⟩, same⟩
  simp [other, Dependency.isTarget_of_isOutputOf belongs]

/-- A linked output stays so when some target gives way to an artefact. -/
theorem Links.redirect (links : d.Links id output) (owned : output.isOutputOf id = true)
    (k : TargetId) (a : Prebuilt) : (d.redirect k a.dependency).Links id output where
  present := by
    rw [Dependencies.redirect, SortedMap.get?_map, Option.isSome_map]
    exact links.present
  followed node nodes found depends := by
    rw [Dependencies.redirect, SortedMap.get?_map] at found
    obtain ⟨before, held, rfl⟩ := Option.map_eq_some_iff.mp found
    simp only at depends ⊢
    split at depends <;> rename_i all
    · rw [if_pos all]
      exact links.followed node before held depends
    · rw [if_neg all]
      -- The target is still depended on, so that it is not the one that has given way.
      obtain ⟨member, given, here⟩ := List.any_eq_true.mp depends
      rcases SortedSet.mem_of_mem_place given with rfl | there
      · simp [a.isTarget_dependency] at here
      · obtain ⟨there, spared⟩ := List.mem_filter.mp there
        simp only [Bool.and_eq_true, Bool.not_eq_true'] at spared
        have apart : id.identity ≠ k.identity := by
          intro same
          rw [Dependency.isTarget_congr_id same, spared.1] at here
          cases here
        -- Then its output is kept as well.
        have contained :=
          links.followed node before held (List.any_eq_true.mpr ⟨member, there, here⟩)
        exact SortedSet.contains_insert.mpr (.inr (contains_spared contained owned apart))

/-- Giving way to an artefact changes nothing where the target is avoided. -/
theorem Avoids.redirect_eq_self (avoids : d.Avoids id) (artifact : Dependency) :
    d.redirect id artifact = d := by
  refine SortedMap.map_eq_self fun node nodes stored => ?_
  obtain ⟨held, _, member⟩ := SortedMap.get?_eq_some_iff.mp stored
  -- Nothing that is there concerns the target.
  have all : ∀ other ∈ nodes.toList, (!other.isTarget id && !other.isOutputOf id) = true := by
    intro other given
    obtain ⟨target, output⟩ := avoids (held, nodes) member other given
    simp [target, output]
  exact if_pos (List.length_filter_eq_length_iff.mpr all)

end Dependencies

namespace Workspace

variable {w w' : Workspace} {l l' : Ledger} {id : TargetId} {b : ForeignBuild}

/-- Passing a target through a function that leaves it alone changes nothing. -/
theorem modifyTarget_eq_self {f : Target → Target}
    (same : ∀ t, w.target? id = some t → f t = t) : w.modifyTarget id f = w := by
  -- The project is left alone by leaving its target alone.
  have projects : (w.projects.modify id.path fun p =>
      { p with targets := p.targets.modify id.name f }) = w.projects := by
    refine SortedMap.modify_eq_self fun p stored => ?_
    have targets : p.targets.modify id.name f = p.targets :=
      DeclaredMap.modify_eq_self fun t declared => same t (by simp [target?, stored, declared])
    rw [targets]
  rw [modifyTarget, projects]

/-- One foreign build has been wired: its target runs it, and its output is linked. -/
structure Connected (w : Workspace) (id : TargetId) (b : ForeignBuild) : Prop where
  -- Both fields say that doing it again would change nothing.
  aggregated : ∀ t, w.target? id = some t → t.aggregated id.name b = t
  linked : w.dependencies.Links id (b.outputNode id)

/-- All foreign builds have been wired. -/
def Wired (w : Workspace) : Prop :=
  -- Foreign builds of pruned targets are among them.
  ∀ build ∈ w.foreignBuilds, w.Connected build.1 build.2

namespace Connected

/-- Wiring a foreign build that has been wired changes nothing. -/
theorem wire_eq_self (connected : w.Connected id b) : w.wire id b = w := by
  -- Neither the target nor the dependencies change.
  have targets := modifyTarget_eq_self connected.aggregated
  have links := connected.linked.link_eq_self
  simp only [wire, targets, links]

/-- A foreign build that has just been wired is. -/
theorem of_wire (w : Workspace) (id : TargetId) (b : ForeignBuild) :
    (w.wire id b).Connected id b where
  -- Aggregating once more changes nothing, and the output has been linked.
  aggregated t found := by
    change (w.modifyTarget id fun t => t.aggregated id.name b).target? id = some t at found
    rw [target?_modifyTarget] at found
    obtain ⟨u, _, rfl⟩ := Option.map_eq_some_iff.mp found
    rw [if_pos rfl, Target.aggregated_aggregated]
  linked := w.dependencies.links_link id (b.outputNode id)

/-- A foreign build that has been wired stays so when one of another target is. -/
theorem wire (connected : w.Connected id b) {k : TargetId} {c : ForeignBuild}
    (only : k.identity = id.identity → c = b) : (w.wire k c).Connected id b where
  aggregated t found := by
    change (w.modifyTarget k fun t => t.aggregated k.name c).target? id = some t at found
    rw [target?_modifyTarget] at found
    obtain ⟨u, there, rfl⟩ := Option.map_eq_some_iff.mp found
    split
    · -- Another spelling of the target has the same build.
      rename_i same
      rw [only same, show k.name = id.name from congrArg Prod.snd same,
        Target.aggregated_aggregated]
    · exact connected.aggregated u there
  linked := connected.linked.link rfl k

end Connected

/-- A target has one foreign build, however it is spelled. -/
theorem eq_of_mem_foreignBuilds {first second : TargetId × ForeignBuild}
    (member : first ∈ w.foreignBuilds) (other : second ∈ w.foreignBuilds)
    (same : first.1.identity = second.1.identity) : first = second := by
  -- Targets are collected in one spelling each.
  obtain ⟨t, there, owns, own⟩ := mem_foreignBuilds.mp member
  obtain ⟨u, here, has, other⟩ := mem_foreignBuilds.mp other
  rw [← own, ← other] at same
  have one : t = u := SortedSet.eq_of_compare there here (OwnedTarget.compare_eq_iff.mpr same)
  subst one
  exact Prod.ext (own.symm.trans other) (Option.some.inj (owns.symm.trans has))

/-- Something tells the targets of any two foreign builds apart. -/
theorem foreignBuilds_apart (w : Workspace) :
    w.foreignBuilds.Pairwise fun first second => first.1.identity ≠ second.1.identity := by
  -- Targets are listed once, and each has one build at most.
  refine SortedSet.apart_filterMap (fun t build carried => ?_) w.foreignBuildTargets
  obtain ⟨b, _, rfl⟩ := Option.map_eq_some_iff.mp carried
  rfl

/-- Once all foreign builds have been wired, all are. -/
theorem wired_wired (w : Workspace) : w.wired.Wired := by
  -- The invariant is that each build has been wired or is still to come.
  have steps : ∀ (builds : List (TargetId × ForeignBuild)) (w' : Workspace),
      (∀ build ∈ builds, build ∈ w.foreignBuilds) →
      (∀ build ∈ w.foreignBuilds, build ∈ builds ∨ w'.Connected build.1 build.2) →
      ∀ build ∈ w.foreignBuilds, (builds.foldl (fun w build => w.wire build.1 build.2) w').Connected
        build.1 build.2 := by
    intro builds
    induction builds with
    | nil =>
      intro w' _ state build member
      exact (state build member).resolve_left List.not_mem_nil
    | cons first rest ih =>
      intro w' among state
      refine ih (w'.wire first.1 first.2) (fun build later => among build (.tail _ later)) ?_
      intro build member
      rcases state build member with waiting | connected
      · rcases List.mem_cons.mp waiting with rfl | later
        · exact .inr (.of_wire w' build.1 build.2)
        · exact .inl later
      · refine .inr (connected.wire fun same => ?_)
        rw [eq_of_mem_foreignBuilds (among first (.head _)) member same]
  intro build member
  rw [foreignBuilds_of_outline w.outline_wired] at member
  exact steps w.foreignBuilds w (fun _ given => given) (fun _ => .inl) build member

namespace Wired

/-- Wiring a workspace that has been wired changes nothing. -/
theorem wired_eq_self (wired : w.Wired) : w.wired = w := by
  -- None of the builds changes anything when its turn comes.
  have steps : ∀ builds : List (TargetId × ForeignBuild),
      (∀ build ∈ builds, w.Connected build.1 build.2) →
      builds.foldl (fun w build => w.wire build.1 build.2) w = w := by
    intro builds connected
    induction builds with
    | nil => rfl
    | cons first rest ih =>
      rw [List.foldl_cons, (connected first (.head _)).wire_eq_self]
      exact ih fun build later => connected build (.tail _ later)
  exact steps w.foreignBuilds wired

/-- A workspace stays wired if its targets change only in being pruned, and if what is linked stays
so. -/
theorem of_revived (wired : w.Wired) (outline : w'.outline = w.outline)
    (same : w'.revived = w.revived)
    (links : ∀ (id : TargetId) (b : ForeignBuild), w.dependencies.Links id (b.outputNode id) →
      w'.dependencies.Links id (b.outputNode id)) : w'.Wired := by
  intro build member
  rw [foreignBuilds_of_outline outline] at member
  obtain ⟨aggregated, linked⟩ := wired build member
  refine ⟨fun t found => ?_, links build.1 build.2 linked⟩
  -- What is found now was found before, up to being pruned.
  have before := target?_of_revived same build.1
  rw [found] at before
  obtain ⟨u, there, alike⟩ := Option.map_eq_some_iff.mp before.symm
  have done := Target.aggregated_revived_eq.mpr (aggregated u there)
  rw [alike] at done
  exact Target.aggregated_revived_eq.mp done

end Wired

/-- A substitution leaves the dependencies as its replacements have made them. -/
theorem dependencies_substitute {table : ArtifactTable}
    (done : w.substitute table l = .ok (w', l')) :
    w'.dependencies = ((w.replaceable table).foldl replace w).dependencies := by
  rcases substitute_eq_ok.mp done with ⟨empty, rfl, _⟩ | ⟨_, pruned, _⟩
  · rw [empty]
    rfl
  · -- Pruning changes no dependencies.
    obtain ⟨needed, _, rfl⟩ := pruneUnreachable_eq_ok.mp pruned
    rfl

/-- What is linked stays so when some targets are replaced. -/
theorem links_replaceAll (rs : List Replacement)
    (links : w.dependencies.Links id (b.outputNode id)) :
    (rs.foldl replace w).dependencies.Links id (b.outputNode id) := by
  -- Targets give way one after another; the output of a target is its own.
  have owned : (b.outputNode id).isOutputOf id = true :=
    Dependency.isOutputOf_iff.mpr ⟨id, b.output.linking, rfl, rfl⟩
  induction rs generalizing w with
  | nil => exact links
  | cons r rest ih =>
    have step : (w.replace r).dependencies.Links id (b.outputNode id) :=
      links.redirect owned r.target r.artifact
    exact ih step

/-- Replacing targets that are avoided changes no dependencies. -/
theorem dependencies_replaceAll {rs : List Replacement}
    (avoids : ∀ r ∈ rs, w.dependencies.Avoids r.target) :
    (rs.foldl replace w).dependencies = w.dependencies := by
  -- None of the targets changes anything when it gives way.
  induction rs generalizing w with
  | nil => rfl
  | cons r rest ih =>
    have step : (w.replace r).dependencies = w.dependencies :=
      (avoids r (.head _)).redirect_eq_self r.artifact.dependency
    have later : ∀ r' ∈ rest, (w.replace r).dependencies.Avoids r'.target := by
      intro r' member
      rw [step]
      exact avoids r' (.tail _ member)
    rw [List.foldl_cons, ih later, step]

/-- A substitution keeps a workspace wired. -/
theorem Wired.substitute (wired : w.Wired) {table : ArtifactTable}
    (done : w.substitute table l = .ok (w', l')) : w'.Wired := by
  -- Only flags change in projects, and redirecting keeps the links of all builds.
  refine wired.of_revived (narrows_of_substitute done).outline (revived_substitute done) ?_
  intro id b links
  rw [dependencies_substitute done]
  exact links_replaceAll _ links

/-- A focus keeps a workspace wired. -/
theorem Wired.focus (wired : w.Wired) {s : Selection}
    (done : s.focus w l = .ok (w', l')) : w'.Wired := by
  -- Only flags change in projects, and dependencies do not.
  refine wired.of_revived (Selection.focused_of_focus done).outline (s.revived_focus done) ?_
  intro id b links
  rwa [s.dependencies_focus done]

end Workspace

end BuildGraph
