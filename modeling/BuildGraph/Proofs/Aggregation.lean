import BuildGraph.Proofs.Collections.Reordering
import BuildGraph.Proofs.Rewiring

/-! Wiring makes every target with a foreign build run that build, and changes no other target. -/

namespace BuildGraph

namespace Target

/-- What wiring makes of a target: one with a foreign build runs it, and others stay as they are. -/
def rewired (t : Target) : Target :=
  -- The phase is named after the target itself.
  match t.foreignBuild with
  | some b => t.aggregated t.name b
  | none => t

/-- A target has been made to run the foreign build `b`. -/
structure Runs (before : Target) (b : ForeignBuild) (after : Target) : Prop where
  name : after.name = before.name
  pruned : after.pruned = before.pruned
  foreignBuild : after.foreignBuild = before.foreignBuild
  product : after.product = .aggregate
  tags : ∀ tag, tag ∈ after.tags.toList ↔
    tag ∈ before.tags.toList ∨ tag = "graphmill:foreign-build-aggregate"
  -- One phase comes first, and takes the place of all that bear its name.
  phases : after.phases =
    { name := "Foreign Build: " ++ before.name
      order := .before
      script := b.script
      -- Of the inputs, scripts are no places to look at.
      inputPaths := b.inputs.filterMap fun input => match input with
        | .file path => some path
        | .folder path => some path
        | .script _ => none
      outputPaths := [b.output.path] } ::
    before.phases.filter fun phase => phase.name ≠ "Foreign Build: " ++ before.name

/-- What has become of a target: it runs its foreign build, or it is what it was. -/
structure Rewired (before after : Target) : Prop where
  -- The two cases exclude each other and leave none out.
  runs : ∀ b, before.foreignBuild = some b → before.Runs b after
  unchanged : before.foreignBuild = none → after = before

/-- A target that is aggregated under its own name has been made to run the foreign build. -/
theorem runs_aggregated (t : Target) (b : ForeignBuild) : t.Runs b (t.aggregated t.name b) where
  name := rfl
  pruned := rfl
  foreignBuild := rfl
  product := rfl
  tags tag := by
    -- Tags are there or not, since each of them has one spelling.
    change tag ∈ (t.tags.insert aggregateTag).toList ↔ _
    rw [← SortedSet.contains_iff_mem, ← SortedSet.contains_iff_mem, SortedSet.contains_insert,
      Std.LawfulEqOrd.compare_eq_iff_eq, or_comm]
    rfl
  phases := rfl

/-- What wiring makes of a target is what has become of it. -/
theorem rewired_rewired (t : Target) : t.Rewired t.rewired where
  -- A target without a foreign build falls through.
  runs b owns := by
    rw [rewired, owns]
    exact t.runs_aggregated b
  unchanged owns := by rw [rewired, owns]

/-- Wiring keeps the outline of a target. -/
theorem outline_rewired (t : Target) : t.rewired.outline = t.outline := by
  -- Running a foreign build changes nothing that the outline shows.
  rw [rewired]
  split <;> rfl

end Target

namespace Workspace

variable {w : Workspace}

/-- Wiring one foreign build makes its target run it, and no other target. -/
theorem target?_wire (w : Workspace) (build : TargetId × ForeignBuild) (k : TargetId) :
    (w.wire build.1 build.2).target? k = (w.target? k).map fun t =>
      if build.1.identity = k.identity then t.aggregated build.1.name build.2 else t :=
  -- Of the projects, wiring changes the one target only.
  w.target?_modifyTarget (fun t => t.aggregated build.1.name build.2) build.1 k

/-- Wiring does not change what is found under the identities of other targets than those with
foreign builds. -/
theorem target?_wired_of_other {k : TargetId}
    (others : ∀ build ∈ w.foreignBuilds, build.1.identity ≠ k.identity) :
    w.wired.target? k = w.target? k := by
  -- Wiring goes build by build, and none of them is that of the target.
  refine foldl_of_others (fun v => target? v k) (fun build member v => ?_) w
  simp [target?_wire, others build member]

/-- Wiring makes a target with a foreign build run that build. -/
theorem target?_wired_of_mem {build : TargetId × ForeignBuild} (member : build ∈ w.foreignBuilds)
    {k : TargetId} (own : build.1.identity = k.identity) :
    w.wired.target? k = (w.target? k).map fun t => t.aggregated k.name build.2 := by
  have distinct : w.foreignBuilds.Nodup := w.foreignBuilds_apart.imp fun {a b} apart same =>
    apart (congrArg (fun build => build.1.identity) same)
  have names : build.1.name = k.name := congrArg Prod.snd own
  refine foldl_of_one (fun v => target? v k) (Option.map fun t => t.aggregated k.name build.2)
    distinct member (fun v => ?_) (fun other there apart v => ?_) w
  · simp only [target?_wire, own, if_true, names]
  · -- Another build is that of another target.
    have elsewhere : other.1.identity ≠ k.identity := fun same =>
      apart (eq_of_mem_foreignBuilds there member (same.trans own.symm))
    simp [target?_wire, elsewhere]

/-- In a tidy workspace, what is found with a foreign build is listed with it. -/
theorem Tidy.mem_foreignBuilds (tidy : w.Tidy) {k : TargetId} {t : OwnedTarget} {b : ForeignBuild}
    (found : w.ownedTarget? k = some t) (owns : t.target.foreignBuild = some b) :
    (t.id, b) ∈ w.foreignBuilds := by
  -- In a tidy workspace, all that is found is listed.
  have listed : t ∈ w.allTargets.toList := tidy.mem_allTargets.mpr (mem_owned_of_ownedTarget? found)
  exact Workspace.mem_foreignBuilds.mpr
    ⟨t, List.mem_filter.mpr ⟨listed, by simp [owns]⟩, owns, rfl⟩

/-- In a tidy workspace, what is found without a foreign build has the identity of none. -/
theorem Tidy.identity_of_mem_foreignBuilds (tidy : w.Tidy) {k : TargetId} {t : OwnedTarget}
    (found : w.ownedTarget? k = some t) (owns : t.target.foreignBuild = none) :
    ∀ build ∈ w.foreignBuilds, build.1.identity ≠ k.identity := by
  intro build member same
  obtain ⟨u, listed, has, own⟩ := Workspace.mem_foreignBuilds.mp member
  have there : u ∈ w.owned := tidy.mem_allTargets.mp (List.mem_filter.mp listed).1
  -- A listed target with the same identity would be the same one.
  have identity : u.identity = t.identity := by
    rw [OwnedTarget.identity, own, same, ← tidy k t found]
  have one : u = t := tidy.eq_of_identity there (mem_owned_of_ownedTarget? found) identity
  rw [one, owns] at has
  cases has

/-- In a tidy workspace, wiring makes the target that is found under an identity run its foreign
build if it has one. -/
theorem Tidy.target?_wired (tidy : w.Tidy) (k : TargetId) :
    w.wired.target? k = (w.target? k).map Target.rewired := by
  cases found : w.ownedTarget? k with
  | none =>
    -- Nothing is found in the end where nothing was found before.
    have outlines := id_ownedTarget?_of_outline w.outline_wired k
    rw [found] at outlines
    rw [target?_eq, target?_eq, found, Option.map_eq_none_iff.mp outlines]
    rfl
  | some t =>
    have own : t.id.identity = k.identity := tidy k t found
    have before : w.target? k = some t.target := by
      rw [target?_eq, found]
      rfl
    rw [before, Option.map_some, Target.rewired]
    cases owns : t.target.foreignBuild with
    | some b =>
      have name : k.name = t.target.name := (congrArg Prod.snd own).symm
      rw [target?_wired_of_mem (tidy.mem_foreignBuilds found owns) own, before, name]
      rfl
    | none =>
      rw [target?_wired_of_other (tidy.identity_of_mem_foreignBuilds found owns), before]

/-- Wiring a tidy workspace makes each target run its foreign build if it has one, and does nothing
else to the projects. -/
theorem Tidy.projects_wired (tidy : w.Tidy) :
    w.wired.projects = (w.mapTargets fun _ => Target.rewired).projects := by
  -- Both have one outline, and the same target under every identity.
  have outlines : w.wired.outline = (w.mapTargets fun _ => Target.rewired).outline :=
    w.outline_wired.trans (w.outline_mapTargets fun _ => Target.outline_rewired).symm
  refine projects_of_outline outlines fun k => ?_
  rw [tidy.target?_wired, target?_mapTargets, target?_eq, Option.map_map]
  rfl

end Workspace

/-- What has become of a project: nothing but its targets has changed, and these are in their
places. -/
structure Project.Rewired (before after : Project) : Prop where
  -- The lists are compared place by place, so nothing is added, dropped or moved.
  rest : after = { before with targets := after.targets }
  targets : List.Forall₂ (fun b a => a.1 = b.1 ∧ b.2.Rewired a.2)
    before.targets.entries after.targets.entries

namespace StandardPass

/-- Where keys are consistent, wiring makes every target with a foreign build run it and changes no
other target: all projects and targets are in their places, and what has become of them is said one
by one. -/
theorem wiring_rewires_targets {w : Workspace} (consistent : w.KeyConsistent) (l : Ledger) :
    ∃ w', wiring.run w l = pure ⟨w', [], l⟩ ∧
      List.Forall₂ (fun before after => after.1 = before.1 ∧ before.2.Rewired after.2)
        w.projects.entries w'.projects.entries := by
  refine ⟨w.wired, rfl, ?_⟩
  -- Projects and targets are changed one by one, and keep their keys.
  rw [consistent.tidy.projects_wired]
  simp only [Workspace.mapTargets, SortedMap.map, List.forall₂_map_right_iff]
  refine List.forall₂_same.mpr fun stored _ => ⟨rfl, rfl, ?_⟩
  simp only [DeclaredMap.map, List.forall₂_map_right_iff]
  exact List.forall₂_same.mpr fun declared _ => ⟨rfl, declared.2.rewired_rewired⟩

end StandardPass

namespace Sample

/-- A phase that somebody wrote by hand. -/
def handwritten (name : String) : BuildPhase where
  -- It runs after the compilation, unlike a generated phase.
  name := name
  order := .after
  script := "true"

/-- A target with handwritten phases, two of which bear the name of the generated one. -/
def scripted : Target where
  -- The generated phase must take both namesakes out and leave the others where they are.
  name := "Kit"
  product := .staticLibrary
  phases := [handwritten "Foreign Build: Kit", handwritten "Lint", handwritten "Foreign Build: Kit",
    handwritten "Lint"]
  tags := .ofList ["vendored"]

/-- A script that reads a file and a folder, and depends on a text. -/
def reading : ForeignBuild where
  script := "make kit"
  inputs := [.file ⟨"kit.c"⟩, .script "cc --version", .folder ⟨"include"⟩]
  output := ⟨⟨"out/Kit.a"⟩, .static⟩

/-- A project with one target. -/
def projectOf (path : Path) (t : Target) : Project where
  path := path
  name := "P"
  targets := .ofList [(t.name, t)]

/-- Two projects whose targets have one name, and only one of these has a foreign build. -/
def twins : Workspace where
  -- One of the paths has a slash at its end, so key and path are spelled differently.
  projects := .ofList [(⟨"/C"⟩, projectOf ⟨"/C/"⟩ { scripted with foreignBuild := some reading }),
    (⟨"/D"⟩, projectOf ⟨"/D"⟩ scripted)]

end Sample

/-- Of two targets with one name, the one with a foreign build loses the phases that bear the name
of the generated one and keeps the others, and the other target loses nothing. -/
theorem StandardPass.wiring_rewires_targets_of_sample : Sample.twins.KeyConsistent ∧
    ∃ w', StandardPass.wiring.run Sample.twins {} = pure ⟨w', [], {}⟩ ∧
      List.Forall₂ (fun before after => after.1 = before.1 ∧ before.2.Rewired after.2)
        Sample.twins.projects.entries w'.projects.entries ∧
      w'.targets =
        [{ name := "Kit"
           product := .aggregate
           phases := [
             { name := "Foreign Build: Kit", order := .before, script := "make kit",
               inputPaths := [⟨"kit.c"⟩, ⟨"include"⟩], outputPaths := [⟨"out/Kit.a"⟩] },
             Sample.handwritten "Lint", Sample.handwritten "Lint"]
           tags := .ofList ["vendored", "graphmill:foreign-build-aggregate"]
           foreignBuild := some Sample.reading },
          Sample.scripted] := by
  have consistent : Sample.twins.KeyConsistent := ⟨by decide, by decide⟩
  obtain ⟨w', ran, rewired⟩ := wiring_rewires_targets consistent {}
  refine ⟨consistent, w', ran, rewired, ?_⟩
  -- The run gives one workspace, which can be evaluated.
  cases ran
  decide

end BuildGraph
