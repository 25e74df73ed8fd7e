import BuildGraph.Proofs.Collections.Reordering
import BuildGraph.Proofs.StaysWired

/-! Wiring adds the outputs of foreign builds to the nodes, and to the dependencies of whatever
depends on their targets. It adds nothing else, and it does not matter what is wired first. -/

namespace BuildGraph

/-- Some nodes contain that of a target exactly when one of them stands for it. -/
theorem Dependency.any_isTarget (id : TargetId) (nodes : SortedSet Dependency) :
    nodes.toList.any (isTarget id) = nodes.contains id.toDependency := by
  -- A node is that of a target just if it compares equal to the node made of it.
  rw [Bool.eq_iff_iff, List.any_eq_true, SortedSet.contains_iff]
  simp only [isTarget_iff_compare]

namespace Dependencies

variable {d : Dependencies} {id k : TargetId} {output other : Dependency}

/-- Nodes together with `output`, if one of them stands for the target `id`. -/
def tie (id : TargetId) (output : Dependency) (nodes : SortedSet Dependency) :
    SortedSet Dependency :=
  -- What linking does to one set, without the relation around it.
  if nodes.toList.any (Dependency.isTarget id) then nodes.insert output else nodes

/-- Linking adds an entry for an output, and then ties it to all sets. -/
theorem link_eq (d : Dependencies) (id : TargetId) (output : Dependency) :
    d.link id output = (d.add output []).map (tie id output) :=
  -- The definition is this composition already.
  rfl

/-- Tying an output that is no target leaves the targets among some nodes as they are. -/
theorem any_tie (passed : output.isTarget k = false) (nodes : SortedSet Dependency) :
    (tie id output nodes).toList.any (Dependency.isTarget k) =
      nodes.toList.any (Dependency.isTarget k) := by
  rw [tie]
  split
  · -- What is added is not the node of the target.
    rw [Dependency.any_isTarget, Dependency.any_isTarget, Bool.eq_iff_iff,
      SortedSet.contains_insert, ← Dependency.isTarget_iff_compare, passed,
      or_iff_right Bool.false_ne_true]
  · rfl

/-- What is tied second is tied for the sake of what is there from the beginning. -/
theorem tie_tie (passed : output.isTarget k = false) (nodes : SortedSet Dependency) :
    tie k other (tie id output nodes) = if nodes.toList.any (Dependency.isTarget k) then
      (tie id output nodes).insert other else tie id output nodes := by
  -- The output tied first is no target, so it cannot make the second tie apply.
  rw [tie, any_tie passed]

/-- Two outputs can be tied in either order. -/
theorem tie_comm (passed : output.isTarget k = false) (other_passed : other.isTarget id = false)
    (apart : compare output other ≠ .eq) (nodes : SortedSet Dependency) :
    tie k other (tie id output nodes) = tie id output (tie k other nodes) := by
  rw [tie_tie passed, tie_tie other_passed, tie, tie]
  -- Only where both are added does the order matter, and there it does not.
  by_cases first : nodes.toList.any (Dependency.isTarget id) = true
  · by_cases second : nodes.toList.any (Dependency.isTarget k) = true
    · simp only [first, second, if_true]
      exact SortedSet.insert_comm apart
    · simp only [first, second, if_true]
      rfl
  · simp only [first, Bool.false_eq_true, if_false]

/-- Giving a node an entry changes no dependencies. -/
theorem held_add (d : Dependencies) (output source : Dependency) :
    (d.add output []).held source = d.held source := by
  rw [held, held, add, SortedMap.get?_alter]
  split
  · -- The entry of the node itself is kept, or is empty if it is new.
    rename_i same
    rw [SortedMap.get?_congr same]
    rfl
  · rfl

/-- An entry can be added before or after an output is tied to all sets. -/
theorem add_map_tie (d : Dependencies) (id : TargetId) (output node : Dependency) :
    add (d.map (tie id output)) node [] = (d.add node []).map (tie id output) := by
  refine SortedMap.map_alter fun held => ?_
  -- Nothing is tied to an empty set.
  cases held <;> rfl

/-- Outputs of different targets can be linked in either order. -/
theorem link_comm (passed : output.isTarget k = false) (other_passed : other.isTarget id = false)
    (apart : compare output other ≠ .eq) :
    (d.link id output).link k other = (d.link k other).link id output := by
  -- Each entry commutes with the ties of the other, and so do the entries with each other and the
  -- ties with each other.
  have added : (d.add output []).add other [] = (d.add other []).add output [] :=
    SortedMap.alter_comm apart
  have tied : (fun nodes => tie k other (tie id output nodes)) =
      fun nodes => tie id output (tie k other nodes) :=
    funext (tie_comm passed other_passed apart)
  rw [link_eq, link_eq, add_map_tie, SortedMap.map_map, added, tied]
  rw [link_eq, link_eq, add_map_tie, SortedMap.map_map]

/-- The relation with some nodes given entries, be they empty. -/
def addAll (d : Dependencies) (nodes : List Dependency) : Dependencies :=
  -- A node that has an entry keeps it.
  nodes.foldl (fun d node => d.add node []) d

/-- The relation with the outputs of several targets linked. -/
def linkAll (d : Dependencies) (links : List (TargetId × Dependency)) : Dependencies :=
  -- The order is that of the list.
  links.foldl (fun d pair => d.link pair.1 pair.2) d

/-- The outputs of those targets that some nodes stand for. -/
def tied (links : List (TargetId × Dependency)) (nodes : SortedSet Dependency) : List Dependency :=
  -- The nodes are those of the beginning, so what one link adds does not count for the next.
  (links.filter fun pair => nodes.toList.any (Dependency.isTarget pair.1)).map Prod.snd

/-- Entries can be added before or after an output is tied to all sets. -/
theorem addAll_map_tie (d : Dependencies) (id : TargetId) (output : Dependency)
    (nodes : List Dependency) :
    addAll (d.map (tie id output)) nodes = (d.addAll nodes).map (tie id output) := by
  -- By induction on the nodes: an added entry is empty, and tying changes no empty set.
  induction nodes generalizing d with
  | nil => rfl
  | cons node rest ih =>
    have step : add (d.map (tie id output)) node [] = (d.add node []).map (tie id output) :=
      add_map_tie d id output node
    exact (congrArg (addAll · rest) step).trans (ih (d.add node []))

/-- Linking several outputs adds their entries, and to each set those that it needs from the
beginning. -/
theorem linkAll_eq {links : List (TargetId × Dependency)}
    (passed : ∀ pair ∈ links, ∀ k, pair.2.isTarget k = false) (d : Dependencies) :
    d.linkAll links = (d.addAll (links.map Prod.snd)).map fun nodes =>
      nodes.insertAll (tied links nodes) := by
  -- What is linked later sees the outputs that are linked first, and passes over them.
  induction links generalizing d with
  | nil => exact (SortedMap.map_eq_self fun _ _ _ => rfl).symm
  | cons pair rest ih =>
    have others_passed : ∀ other ∈ rest, ∀ k, other.2.isTarget k = false := fun other member =>
      passed other (.tail _ member)
    have later : ∀ nodes, tied rest (tie pair.1 pair.2 nodes) = tied rest nodes := fun nodes => by
      simp only [tied, any_tie (passed pair (.head _) _)]
    have split : (fun nodes => (tie pair.1 pair.2 nodes).insertAll
        (tied rest (tie pair.1 pair.2 nodes))) =
        fun nodes => nodes.insertAll (tied (pair :: rest) nodes) := by
      funext nodes
      rw [later, tie, tied, tied, List.filter_cons]
      split <;> rfl
    calc d.linkAll (pair :: rest)
      _ = (d.link pair.1 pair.2).linkAll rest := rfl
      _ = ((d.link pair.1 pair.2).addAll (rest.map Prod.snd)).map fun nodes =>
          nodes.insertAll (tied rest nodes) := ih others_passed _
      _ = ((d.addAll ((pair :: rest).map Prod.snd)).map (tie pair.1 pair.2)).map fun nodes =>
          nodes.insertAll (tied rest nodes) := by rw [link_eq, addAll_map_tie]; rfl
      _ = _ := by rw [SortedMap.map_map, split]

/-- Giving nodes entries adds them to the nodes that have some. -/
theorem keySet_addAll (d : Dependencies) (nodes : List Dependency) :
    SortedMap.keySet (d.addAll nodes) = d.keySet.insertAll nodes := by
  -- Each entry adds its own node to the keys, whether it was there or not.
  induction nodes generalizing d with
  | nil => rfl
  | cons node rest ih =>
    have step : SortedMap.keySet (d.add node []) = d.keySet.insert node := d.keySet_alter node _
    exact (ih _).trans (congrArg (SortedSet.insertAll · rest) step)

/-- Giving nodes entries changes no dependencies. -/
theorem held_addAll (d : Dependencies) (nodes : List Dependency) (source : Dependency) :
    (d.addAll nodes).held source = d.held source := by
  -- An entry that is added holds nothing, and one that was there keeps what it holds.
  induction nodes generalizing d with
  | nil => rfl
  | cons node rest ih => exact (ih _).trans (held_add d node source)

section Apart

variable {links : List (TargetId × Dependency)}
  (passed : ∀ pair ∈ links, ∀ k, pair.2.isTarget k = false)
  (apart : links.Pairwise fun a b => compare a.2 b.2 ≠ .eq)
include passed apart

/-- Once several outputs have been linked, the nodes with entries are those from before and the
outputs, unless these were there in some spelling. -/
theorem mem_keys_linkAll {node : Dependency} : node ∈ (d.linkAll links).keys ↔
    node ∈ d.keys ∨ node ∈ links.map Prod.snd ∧ d.contains node = false := by
  -- Ties change no keys, so all of them come from the entries that are added first; no two outputs
  -- compare equal, so each of them is a key in its own spelling or was one before.
  have keys : (d.linkAll links).keys = (d.keySet.insertAll (links.map Prod.snd)).toList := by
    rw [linkAll_eq passed, ← keySet_addAll]
    simp [SortedMap.keys, SortedMap.keySet, SortedMap.map]
  rw [keys, SortedSet.mem_insertAll_of_apart (List.pairwise_map.mpr apart),
    SortedMap.contains_keySet]
  rfl

/-- Once several outputs have been linked, a node depends on what it depended on before, and on the
outputs of the targets among that, unless these were there in some spelling. -/
theorem mem_held_linkAll {source node : Dependency} :
    node ∈ ((d.linkAll links).held source).toList ↔ node ∈ (d.held source).toList ∨
      node ∈ tied links (d.held source) ∧ (d.held source).contains node = false := by
  -- Nothing is added to what a node without an entry depends on.
  have held : (d.linkAll links).held source =
      (d.held source).insertAll (tied links (d.held source)) := by
    have empty : SortedSet.insertAll {} (tied links {}) = {} := by simp [tied, SortedSet.insertAll]
    rw [← held_addAll d (links.map Prod.snd), linkAll_eq passed, held_map empty]
  have some_apart : (tied links (d.held source)).Pairwise fun a b => compare a b ≠ .eq :=
    List.pairwise_map.mpr (apart.sublist List.filter_sublist)
  rw [held, SortedSet.mem_insertAll_of_apart some_apart]

end Apart

end Dependencies

/-- What two foreign builds produce compares equal only if nothing tells their targets apart. -/
theorem ForeignBuild.identity_of_compare {b c : ForeignBuild} {id k : TargetId}
    (same : compare (b.outputNode id) (c.outputNode k) = .eq) : id.identity = k.identity := by
  have own : ∀ (b : ForeignBuild) (id : TargetId), (b.outputNode id).isOutputOf id = true :=
    fun b id => Dependency.isOutputOf_iff.mpr ⟨id, b.output.linking, rfl, rfl⟩
  -- Both nodes belong to the second target, and no node belongs to two.
  have also : (b.outputNode id).isOutputOf k = true :=
    (Dependency.isOutputOf_congr same k).trans (own c k)
  exact Dependency.identity_of_isOutputOf (own b id) also

namespace Workspace

variable {w w' : Workspace} {id k : TargetId} {b c : ForeignBuild}

/-- Changes of two targets that something tells apart can be made in either order. -/
theorem modifyTarget_comm {f g : Target → Target} (apart : id.identity ≠ k.identity) :
    (w.modifyTarget id f).modifyTarget k g = (w.modifyTarget k g).modifyTarget id f := by
  have projects : ((w.projects.modify id.path fun p =>
        { p with targets := p.targets.modify id.name f }).modify k.path fun p =>
        { p with targets := p.targets.modify k.name g }) =
      (w.projects.modify k.path fun p => { p with targets := p.targets.modify k.name g }).modify
        id.path fun p => { p with targets := p.targets.modify id.name f } := by
    refine SortedMap.modify_comm fun paths p => ?_
    -- Targets of one project have different names.
    have names : id.name ≠ k.name := fun same =>
      apart (Prod.ext (Path.compare_eq_iff.mp paths) same)
    simp only [DeclaredMap.modify_comm names]
  exact congrArg (fun projects => { w with projects }) projects

/-- Foreign builds of two targets that something tells apart can be wired in either order. -/
theorem wire_comm (apart : id.identity ≠ k.identity) :
    (w.wire id b).wire k c = (w.wire k c).wire id b := by
  -- Targets and dependencies are changed independently of each other.
  have targets := congrArg projects (modifyTarget_comm (w := w)
    (f := fun t => t.aggregated id.name b) (g := fun t => t.aggregated k.name c) apart)
  have links : (w.dependencies.link id (b.outputNode id)).link k (c.outputNode k) =
      (w.dependencies.link k (c.outputNode k)).link id (b.outputNode id) :=
    Dependencies.link_comm rfl rfl fun same => apart (ForeignBuild.identity_of_compare same)
  exact congrArg₂ Workspace.mk targets links

/-- The foreign builds can be wired in any order. -/
theorem wireAll_perm {builds : List (TargetId × ForeignBuild)} (same : builds.Perm w.foreignBuilds)
    (w' : Workspace) : builds.foldl (fun w build => w.wire build.1 build.2) w' =
      w.foreignBuilds.foldl (fun w build => w.wire build.1 build.2) w' := by
  refine same.foldl_eq' (fun first member second other v => ?_) w'
  by_cases one : first.1.identity = second.1.identity
  · -- There is one foreign build for each target.
    rw [eq_of_mem_foreignBuilds (same.subset member) (same.subset other) one]
  · exact wire_comm one

/-- The targets of the foreign builds, with what these produce. -/
def links (w : Workspace) : List (TargetId × Dependency) :=
  -- Wiring is linking these, and changing targets beside.
  w.foreignBuilds.map fun build => (build.1, build.2.outputNode build.1)

/-- What foreign builds produce is no target. -/
theorem isTarget_of_mem_links : ∀ pair ∈ w.links, ∀ k, pair.2.isTarget k = false := by
  -- What is produced is a node of another kind.
  rintro _ member k
  obtain ⟨build, _, rfl⟩ := List.mem_map.mp member
  rfl

/-- No two foreign builds produce the same thing. -/
theorem links_apart : w.links.Pairwise fun a b => compare a.2 b.2 ≠ .eq :=
  -- Foreign builds belong to targets of different identities, and an output carries the identity of
  -- its target.
  List.pairwise_map.mpr <| w.foreignBuilds_apart.imp fun apart same =>
    apart (ForeignBuild.identity_of_compare same)

/-- Wiring links all that the foreign builds produce. -/
theorem dependencies_wired (w : Workspace) :
    w.wired.dependencies = w.dependencies.linkAll w.links := by
  -- The builds are wired one after another.
  have steps : ∀ (builds : List (TargetId × ForeignBuild)) (w' : Workspace),
      (builds.foldl (fun w build => w.wire build.1 build.2) w').dependencies =
        (builds.map fun build => (build.1, build.2.outputNode build.1)).foldl
          (fun d pair => d.link pair.1 pair.2) w'.dependencies := by
    intro builds
    induction builds with
    | nil => exact fun _ => rfl
    | cons build rest ih => exact fun w' => ih (w'.wire build.1 build.2)
  exact steps w.foreignBuilds w

/-- The target `t` is listed with a foreign build, and `output` is the node for what that
produces. -/
def Produces (w : Workspace) (t : OwnedTarget) (output : Dependency) : Prop :=
  -- The target's own parts make the node, and not the keys it is found under.
  t ∈ w.foreignBuildTargets.toList ∧
    ∃ b, t.target.foreignBuild = some b ∧ output = .foreignOutput t.name t.path b.output.linking

/-- What is linked are the targets with foreign builds and what these produce. -/
theorem mem_links {pair : TargetId × Dependency} :
    pair ∈ w.links ↔ ∃ t, w.Produces t pair.2 ∧ t.id = pair.1 := by
  -- The foreign builds are those of the targets that have one, each with its target's key.
  obtain ⟨id, output⟩ := pair
  simp only [links, List.mem_map, mem_foreignBuilds, Prod.mk.injEq, Produces]
  constructor
  · rintro ⟨build, ⟨t, listed, owns, own⟩, rfl, rfl⟩
    exact ⟨t, ⟨listed, build.2, owns, by rw [← own]; rfl⟩, own⟩
  · rintro ⟨t, ⟨listed, b, owns, rfl⟩, rfl⟩
    exact ⟨(t.id, b), ⟨t, listed, owns, rfl⟩, rfl, rfl⟩

/-- A relation is that of a workspace with what its foreign builds produce linked, and nothing
else. -/
structure Linked (w : Workspace) (d : Dependencies) : Prop where
  -- What is there already, in whatever spelling, is not added again.
  keys : ∀ node, node ∈ d.keys ↔ node ∈ w.dependencies.keys ∨
    (∃ t, w.Produces t node) ∧ w.dependencies.contains node = false
  nodes : ∀ source node, node ∈ (d.held source).toList ↔
    node ∈ (w.dependencies.held source).toList ∨
      (∃ t, w.Produces t node ∧
        (w.dependencies.held source).contains (.target t.name t.path) = true) ∧
      (w.dependencies.held source).contains node = false

/-- Wiring links what the foreign builds produce, and does nothing else to the dependencies. -/
theorem linked_wired (w : Workspace) : w.Linked w.wired.dependencies where
  -- Wiring is the linking of all outputs at once, so both fields are the laws for `linkAll`, with
  -- what is linked and what is needed said in terms of the targets.
  keys node := by
    have listed : node ∈ w.links.map Prod.snd ↔ ∃ t, w.Produces t node := by
      simp only [List.mem_map, mem_links]
      constructor
      · rintro ⟨_, ⟨t, produces, _⟩, rfl⟩
        exact ⟨t, produces⟩
      · rintro ⟨t, produces⟩
        exact ⟨(t.id, node), ⟨t, produces, rfl⟩, rfl⟩
    rw [dependencies_wired, Dependencies.mem_keys_linkAll isTarget_of_mem_links links_apart, listed]
  nodes source node := by
    have needed : node ∈ Dependencies.tied w.links (w.dependencies.held source) ↔
        ∃ t, w.Produces t node ∧
          (w.dependencies.held source).contains (.target t.name t.path) = true := by
      simp only [Dependencies.tied, List.mem_map, List.mem_filter, mem_links,
        Dependency.any_isTarget]
      constructor
      · rintro ⟨_, ⟨⟨t, produces, own⟩, there⟩, rfl⟩
        rw [← own] at there
        exact ⟨t, produces, there⟩
      · rintro ⟨t, produces, there⟩
        exact ⟨(t.id, node), ⟨⟨t, produces, rfl⟩, there⟩, rfl⟩
    rw [dependencies_wired, Dependencies.mem_held_linkAll isTarget_of_mem_links links_apart, needed]

end Workspace

namespace StandardPass

/-- Wiring gives an entry to what each foreign build produces, and to each set of dependencies it
adds what is produced by the targets that are in the set to begin with. It does nothing else to the
dependencies, it asks for no work and writes nothing down, and all of it comes out the same in
whatever order the foreign builds are wired. -/
theorem wiring_links_outputs (w : Workspace) (l : Ledger) :
    ∃ w', wiring.run w l = pure ⟨w', [], l⟩ ∧ w.Linked w'.dependencies ∧
      ∀ builds : List (TargetId × ForeignBuild), builds.Perm w.foreignBuilds →
        builds.foldl (fun v build => v.wire build.1 build.2) w = w' :=
  -- The pass is a fold over the foreign builds; any two of its steps commute, so every permutation
  -- of them ends in the same workspace.
  ⟨w.wired, rfl, w.linked_wired, fun _ same => Workspace.wireAll_perm same w⟩

end StandardPass

namespace Sample

/-- A project with an application and with three targets that have scripts of their own. -/
def toolkit : Project where
  -- All three use one script, so only their names tell them apart.
  path := ⟨"/B"⟩
  name := "B"
  targets := .ofList [("App", { name := "App", product := .app }),
    ("Docs", { name := "Docs", product := .framework, foreignBuild := some build }),
    ("Kit", { name := "Kit", product := .staticLibrary, foreignBuild := some build }),
    ("Tool", { name := "Tool", product := .staticLibrary, foreignBuild := some build })]

/-- A workspace in which one of these targets needs another, what that other produces needs
something already, and nothing needs the third. -/
def chained : Workspace where
  -- A key and a node are spelled in other ways than the project's path.
  projects := .ofList [(toolkit.path, toolkit)]
  dependencies := .ofList [
    (.target "App" toolkit.path, .ofList [.target "Kit" ⟨"/B/"⟩, .target "Tool" toolkit.path]),
    (.target "Tool" toolkit.path, .ofList [.target "Kit" toolkit.path]),
    (.foreignOutput "Kit" ⟨"/B/."⟩ .static, .ofList [.sdk "z"])]

end Sample

/-- Wired from the last to the first, three foreign builds get the entries and edges that they get
in order; the output that is there already keeps its spelling and what it needs. -/
theorem StandardPass.wiring_links_outputs_of_sample :
    Sample.chained.foreignBuilds.reverse.Perm Sample.chained.foreignBuilds ∧
    Sample.chained.foreignBuilds.length = 3 ∧
    ∃ w', StandardPass.wiring.run Sample.chained {} = pure ⟨w', [], {}⟩ ∧
      Sample.chained.Linked w'.dependencies ∧
      Sample.chained.foreignBuilds.reverse.foldl (fun v build => v.wire build.1 build.2)
        Sample.chained = w' ∧
      (w'.dependencies.entries.map fun e => (e.1, e.2.toList)) =
        [(.target "App" ⟨"/B"⟩, [.target "Kit" ⟨"/B/"⟩, .target "Tool" ⟨"/B"⟩,
            .foreignOutput "Kit" ⟨"/B"⟩ .static, .foreignOutput "Tool" ⟨"/B"⟩ .static]),
          (.target "Tool" ⟨"/B"⟩, [.target "Kit" ⟨"/B"⟩, .foreignOutput "Kit" ⟨"/B"⟩ .static]),
          (.foreignOutput "Docs" ⟨"/B"⟩ .static, []),
          (.foreignOutput "Kit" ⟨"/B/."⟩ .static, [.sdk "z"]),
          (.foreignOutput "Tool" ⟨"/B"⟩ .static, [])] := by
  -- The theorem gives the workspace that the reversed fold makes; its entries are then read off by
  -- evaluation.
  have reversed := Sample.chained.foreignBuilds.reverse_perm
  obtain ⟨w', ran, linked, same⟩ := wiring_links_outputs Sample.chained {}
  have others := same _ reversed
  refine ⟨reversed, by decide, w', ran, linked, others, ?_⟩
  rw [← others]
  decide

end BuildGraph
