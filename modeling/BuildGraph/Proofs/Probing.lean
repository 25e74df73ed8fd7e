import BuildGraph.Proofs.Composition
import BuildGraph.Proofs.Scheduling
import BuildGraph.Proofs.Shell.CommandLine

/-! A schedule asks about one artefact after another, in the order of the targets that wait for
them, until it cannot be told about one. It has the commands for those that are not there. -/

namespace BuildGraph

/-- A target, and the foreign build that is to make it. -/
structure DueBuild where
  -- The owner is kept whole, so project and script cannot be mixed up.
  owner : OwnedTarget
  build : ForeignBuild
deriving DecidableEq, Repr

namespace DueBuild

/-- Where the artefact of a due build is to be: a relative path is seen from the project that owns
the target. -/
def place (d : DueBuild) : Path :=
  -- This is said without the function that joins paths.
  if d.build.output.path.isAbsolute then d.build.output.path
  else d.owner.path.join d.build.output.path

/-- The command by which a due build is done: a shell goes to the directory of the project that owns
the target, names it to what comes behind, and does what the script says. -/
def command (d : DueBuild) : SideEffect :=
  -- The directory is one word, whatever characters it has.
  let place := Text.shellQuoted d.owner.path.text
  .command ["/bin/sh", "-c",
    "cd " ++ place ++ " && export SRCROOT=" ++ place ++ " && " ++ d.build.script]

/-- The command of a due build is the one that is asked for. -/
theorem command_eq (d : DueBuild) : d.command = buildCommand d.owner.path d.build.script := by
  -- The variable that names the directory has one name.
  simp [command, buildCommand, directoryVariable, String.append_assoc]

/-- The command of a due build runs its own script in the directory of its own project. -/
theorem runs_command (d : DueBuild) :
    Shell.Runs d.owner.project.path d.build.script d.command :=
  -- The path of a target is that of the project that owns it.
  d.command_eq ▸ Shell.runs_buildCommand d.owner.path d.build.script

/-- What a schedule keeps of a due build. -/
def seen (d : DueBuild) : Path × ForeignBuild :=
  -- The name of the target is dropped.
  (d.owner.path, d.build)

/-- Joining paths already tells absolute ones from others. -/
theorem place_seen (d : DueBuild) : Probe.place d.seen.1 d.seen.2 = d.place := by
  -- Both cases of joining are those of a place.
  rw [Probe.place, place, seen, Path.join]
  split <;> rfl

/-- Whether a probe denies that the artefact of a due build is there. -/
def deniedBy (probe : Probe) (d : DueBuild) : Bool :=
  -- An error is no denial.
  probe d.place matches .ok false

/-- What is known to be missing is what the probe denies. -/
theorem misses_seen (probe : Probe) (d : DueBuild) : probe.misses d.seen = d.deniedBy probe := by
  -- A probe denies, confirms or fails, and misses only what it denies.
  rw [Probe.misses, place_seen, deniedBy]
  cases probe d.place with
  | error cause => rfl
  | ok present => cases present <;> rfl

end DueBuild

namespace Workspace

variable {w : Workspace} {l : Ledger} {probe : Probe}

/-- The builds that are due in a workspace, in the order of their targets. -/
def dueBuilds (w : Workspace) (l : Ledger) : List DueBuild :=
  -- A target has at most one build, so no target is listed twice.
  w.allTargets.toList.filterMap fun t => (activeBuild? l t).map fun build => ⟨t, build.2⟩

/-- A build that is made of an active one belongs to its target. -/
theorem due_iff {t : OwnedTarget} {d : DueBuild} :
    ((activeBuild? l t).map fun build => (⟨t, build.2⟩ : DueBuild)) = some d ↔
      t = d.owner ∧ Active l t d.build := by
  -- The target is carried along, and the build is the active one.
  rw [Option.map_eq_some_iff]
  constructor
  · rintro ⟨build, found, rfl⟩
    exact ⟨rfl, (activeBuild?_eq_some_iff.mp found).2⟩
  · rintro ⟨rfl, active⟩
    exact ⟨d.seen, activeBuild?_eq_some_iff.mpr ⟨rfl, active⟩, rfl⟩

/-- The builds of all active targets are due, and no others. -/
theorem mem_dueBuilds {d : DueBuild} :
    d ∈ w.dueBuilds l ↔ d.owner ∈ w.allTargets.toList ∧ Active l d.owner d.build := by
  -- What is due is made of one target each, which it names as its owner.
  simp only [dueBuilds, List.mem_filterMap, due_iff]
  constructor
  · rintro ⟨_, member, rfl, active⟩
    exact ⟨member, active⟩
  · rintro ⟨member, active⟩
    exact ⟨d.owner, member, rfl, active⟩

/-- Builds are due in the order of the identities of their targets, one for each of them. -/
theorem ordered_dueBuilds (w : Workspace) (l : Ledger) :
    (w.dueBuilds l).Pairwise fun a b => compare a.owner.id b.owner.id = .lt := by
  -- Making builds of targets keeps the order of the targets.
  refine w.allTargets.ordered.filterMap _ fun t u less a due b also => ?_
  obtain ⟨rfl, _⟩ := due_iff.mp due
  obtain ⟨rfl, _⟩ := due_iff.mp also
  exact less

/-- The target of a due build is declared by the project that it is seen with. -/
theorem declared_of_mem_dueBuilds {d : DueBuild} (due : d ∈ w.dueBuilds l) :
    d.owner.project ∈ w.projects.values ∧ d.owner.target ∈ d.owner.project.targets.values := by
  -- All targets are collected from the projects, with the projects they come from.
  obtain ⟨member, _⟩ := mem_dueBuilds.mp due
  obtain ⟨project, held, declared⟩ := List.mem_flatMap.mp (SortedSet.mem_of_mem_collect member)
  obtain ⟨target, itsOwn, same⟩ := List.mem_map.mp declared
  rw [← same]
  exact ⟨held, itsOwn⟩

/-- A schedule keeps the paths and the builds of what is due. -/
theorem activeBuilds_eq_seen (w : Workspace) (l : Ledger) :
    w.activeBuilds l = (w.dueBuilds l).map DueBuild.seen := by
  rw [activeBuilds_eq, dueBuilds, List.map_filterMap]
  refine List.filterMap_congr fun t _ => ?_
  rw [Option.map_map]
  -- The path that comes with an active build is that of its target.
  cases found : activeBuild? l t with
  | none => rfl
  | some build =>
    obtain ⟨here, _⟩ := activeBuild?_eq_some_iff.mp found
    simp [DueBuild.seen, here]

/-- One step of a schedule: the first artefact is asked about, and the others are if there is an
answer. -/
theorem asked_commands_cons (probe : Probe) (build : Path × ForeignBuild)
    (rest : List (Path × ForeignBuild)) : (commands probe (build :: rest)).asked =
      Probe.place build.1 build.2 ::
        if (probe.refusal? build).isSome then [] else (commands probe rest).asked := by
  rw [commands, Attempt.asked_bind, ForeignBuild.command?, Attempt.asked_bind, Attempt.result_bind,
    Probe.refusal?, Probe.place, Probe.ask]
  cases probe (build.1.join build.2.output.path) with
  | error cause => rfl
  | ok present =>
    -- What is put together in the end asks about nothing.
    have rested : ∀ command : Option SideEffect, (do
        return command.toList ++ (← commands probe rest) : Attempt (List SideEffect)).asked =
          (commands probe rest).asked := by
      intro command
      rw [Attempt.asked_bind]
      cases (commands probe rest).result <;> exact List.append_nil _
    exact congrArg (_ :: ·) (rested _)

/-- A schedule goes on past what the probe answers for. -/
theorem asked_commands_append {front : List (Path × ForeignBuild)}
    (answers : ∀ build ∈ front, probe.refusal? build = none) (back : List (Path × ForeignBuild)) :
    (commands probe (front ++ back)).asked =
      (front.map fun build => Probe.place build.1 build.2) ++ (commands probe back).asked := by
  -- The induction is on what there are answers for, each of which takes one step.
  induction front with
  | nil => rfl
  | cons build rest ih =>
    obtain ⟨first, others⟩ := List.forall_mem_cons.mp answers
    rw [List.cons_append, asked_commands_cons, first, ih others]
    rfl

/-- A list either has nothing that the probe refuses to tell about, or a first such thing. -/
theorem answers_or_refusal (probe : Probe) (due : List DueBuild) :
    (∀ d ∈ due, ∃ present, probe d.place = .ok present) ∨
      ∃ before d after cause, due = before ++ d :: after ∧
        (∀ c ∈ before, ∃ present, probe c.place = .ok present) ∧ probe d.place = .error cause := by
  -- What comes behind the first refusal does not matter.
  induction due with
  | nil => exact .inl (List.forall_mem_nil _)
  | cons first rest ih =>
    cases answered : probe first.place with
    | error cause => exact .inr ⟨[], first, rest, cause, rfl, List.forall_mem_nil _, answered⟩
    | ok present =>
      rcases ih with answers | ⟨before, d, after, cause, rfl, answers, refused⟩
      · exact .inl (List.forall_mem_cons.mpr ⟨⟨present, answered⟩, answers⟩)
      · exact .inr ⟨first :: before, d, after, cause, rfl,
          List.forall_mem_cons.mpr ⟨⟨present, answered⟩, answers⟩, refused⟩

/-- Nothing is refused that the probe answers for. -/
theorem refusal?_seen {d : DueBuild} :
    probe.refusal? d.seen = none ↔ ∃ present, probe d.place = .ok present := by
  -- A probe answers or fails, and a refusal tells of the failure.
  rw [Probe.refusal?, DueBuild.place_seen]
  cases probe d.place <;> simp

/-- The schedule asks about each of the first builds that are due, if the probe answers for them. -/
theorem asked_schedule {before after : List DueBuild} (due : w.dueBuilds l = before ++ after)
    (answers : ∀ d ∈ before, ∃ present, probe d.place = .ok present) :
    (w.schedule l probe).asked =
      before.map DueBuild.place ++ (commands probe (after.map DueBuild.seen)).asked := by
  -- The schedule sees builds with their paths, which lead to the places.
  have passed : ∀ build ∈ before.map DueBuild.seen, probe.refusal? build = none :=
    List.forall_mem_map.mpr fun d member => refusal?_seen.mpr (answers d member)
  rw [schedule, activeBuilds_eq_seen, due, List.map_append, asked_commands_append passed,
    List.map_map]
  congr 1
  exact List.map_congr_left fun d _ => d.place_seen

/-- Where the probe answers for all builds that are due, the schedule asks about each of them, and
has the commands of those that it denies. -/
theorem schedule_of_answers
    (answers : ∀ d ∈ w.dueBuilds l, ∃ present, probe d.place = .ok present) :
    w.schedule l probe = ⟨(w.dueBuilds l).map DueBuild.place,
      .ok (((w.dueBuilds l).filter (DueBuild.deniedBy probe)).map DueBuild.command)⟩ := by
  refine Attempt.ext ?_ (schedule_eq_ok.mpr ⟨?_, ?_⟩)
  · rw [asked_schedule (List.append_nil _).symm answers]
    exact List.append_nil _
  · rw [activeBuilds_eq_seen, List.findSome?_eq_none_iff]
    exact List.forall_mem_map.mpr fun d member => refusal?_seen.mpr (answers d member)
  · -- What the probe denies is what the schedule knows to be missing.
    rw [activeBuilds_eq_seen, List.filter_map, List.map_map]
    congr 2
    · funext d
      exact d.command_eq
    · funext d
      exact (d.misses_seen probe).symm

/-- Where the probe cannot tell about a build that is due, and can about all before that, the
schedule asks about these and that one, and has nothing but the reason. -/
theorem schedule_of_refusal {before after : List DueBuild} {d : DueBuild} {cause : String}
    (due : w.dueBuilds l = before ++ d :: after)
    (answers : ∀ c ∈ before, ∃ present, probe c.place = .ok present)
    (refused : probe d.place = .error cause) : w.schedule l probe =
      ⟨(before ++ [d]).map DueBuild.place, .error (.artifactProbe d.place cause)⟩ := by
  have reason : probe.refusal? d.seen = some (.artifactProbe d.place cause) := by
    rw [Probe.refusal?, d.place_seen, refused]
  refine Attempt.ext ?_ (schedule_eq_error.mpr ?_)
  · -- The step at the build that is refused is the last.
    rw [asked_schedule due answers, List.map_cons, asked_commands_cons, reason, d.place_seen]
    simp
  · rw [activeBuilds_eq_seen, due, List.map_append, List.findSome?_append, List.map_cons,
      List.findSome?_cons, reason]
    have passed : (before.map DueBuild.seen).findSome? probe.refusal? = none :=
      List.findSome?_eq_none_iff.mpr <|
        List.forall_mem_map.mpr fun c member => refusal?_seen.mpr (answers c member)
    rw [passed]
    rfl

end Workspace

namespace StandardPass

open Workspace

/-- Builds are due for the targets with foreign builds that are neither pruned nor replaced, by
their paths and names. The pass that schedules asks for the artefacts of these, each once and in
this order, up to the first that the probe fails for: then this is the error, and there is no
outcome. Where it fails for none, the workspace and the ledger are handed on as they are, with the
commands of those builds whose artefacts the probe denies. The command of a build has a shell run
its own script in the directory of its own project. -/
theorem scheduling_asks_in_order (probe : Probe) (w : Workspace) (l : Ledger) :
    (∀ d, d ∈ w.dueBuilds l ↔ d.owner ∈ w.allTargets.toList ∧
      d.owner.target.foreignBuild = some d.build ∧ d.owner.target.pruned = false ∧
        l.replacementFor? d.owner.id = none) ∧
    ((w.dueBuilds l).Pairwise fun a b => compare a.owner.id b.owner.id = .lt) ∧
    (∀ d ∈ w.dueBuilds l, d.owner.project ∈ w.projects.values ∧
      d.owner.target ∈ d.owner.project.targets.values ∧
      Shell.Runs d.owner.project.path d.build.script d.command) ∧
    ((∃ before d after cause, w.dueBuilds l = before ++ d :: after ∧
        (∀ c ∈ before, ∃ present, probe c.place = .ok present) ∧ probe d.place = .error cause ∧
        (scheduling probe).run w l =
          ⟨(before ++ [d]).map DueBuild.place, .error (.artifactProbe d.place cause)⟩) ∨
      (∀ d ∈ w.dueBuilds l, ∃ present, probe d.place = .ok present) ∧
        (scheduling probe).run w l = ⟨(w.dueBuilds l).map DueBuild.place,
          .ok ⟨w, ((w.dueBuilds l).filter (DueBuild.deniedBy probe)).map DueBuild.command, l⟩⟩) ∧
    ((∀ d ∈ w.dueBuilds l, probe d.place = .ok true) →
      ((scheduling probe).run w l).result = .ok ⟨w, [], l⟩) := by
  -- The pass asks what the schedule does, and hands on what it was given.
  have outcome : ∀ {asked result}, w.schedule l probe = ⟨asked, result⟩ →
      (scheduling probe).run w l = ⟨asked, result.map fun effects => ⟨w, effects, l⟩⟩ := by
    intro asked result scheduled
    rw [run, scheduled]
    cases result with
    | error e => rfl
    | ok effects => exact congrArg (Attempt.mk · _) (List.append_nil asked)
  have owned : ∀ d ∈ w.dueBuilds l, d.owner.project ∈ w.projects.values ∧
      d.owner.target ∈ d.owner.project.targets.values ∧
      Shell.Runs d.owner.project.path d.build.script d.command := by
    intro d due
    obtain ⟨held, declared⟩ := declared_of_mem_dueBuilds due
    exact ⟨held, declared, d.runs_command⟩
  refine ⟨fun d => mem_dueBuilds, ordered_dueBuilds w l, owned, ?_, fun present => ?_⟩
  · -- Either the probe answers for all that is due, or there is a first that it fails for.
    rcases answers_or_refusal probe (w.dueBuilds l) with
      answers | ⟨before, d, after, cause, due, answers, refused⟩
    · exact .inr ⟨answers, outcome (schedule_of_answers answers)⟩
    · exact .inl ⟨before, d, after, cause, due, answers, refused,
        outcome (schedule_of_refusal due answers refused)⟩
  · -- What is there is not denied.
    have none : (w.dueBuilds l).filter (DueBuild.deniedBy probe) = [] :=
      List.filter_eq_nil_iff.mpr fun d member => by simp [DueBuild.deniedBy, present d member]
    rw [outcome (schedule_of_answers fun d member => ⟨true, present d member⟩), none]
    rfl

end StandardPass

namespace Sample

/-- A target with a script of its own, whose artefact is to be at a place. -/
def waitingTarget (name script place : String) ( pruned : Bool) : String × Target :=
  (name, { name, product := .staticLibrary, pruned,
           foreignBuild := some { script, output := ⟨⟨place⟩, .static⟩ } })

/-- Two projects with targets of one name, and one target each that is pruned or replaced. -/
def waiting : Workspace where
  -- The projects are listed against their order, and so are the targets.
  projects := .ofList [
    (⟨"/B"⟩, { path := ⟨"/B"⟩, name := "B", targets := .ofList [
      waitingTarget "Net" "make net" "out/Net.a" false,
      waitingTarget "Kit" "make b" "out/Kit.a" false] }),
    (⟨"/A"⟩, { path := ⟨"/A"⟩, name := "A", targets := .ofList [
      waitingTarget "Old" "make old" "out/Old.a" true,
      waitingTarget "Lib" "make lib" "/tmp/Lib.a" false,
      waitingTarget "Kit" "make a" "out/Kit.a" false] })]

/-- One target of the second project is replaced. -/
def waitingLedger : Ledger :=
  -- The replaced target is not pruned, so the ledger alone keeps it from being built.
  ({} : Ledger).recordReplacement ⟨⟨⟨"/B"⟩, "Net"⟩, ⟨⟨"/cache/Net"⟩, .library, .static⟩⟩

/-- One artefact is there, another cannot be told about, and nothing else is there. -/
def guarded : Probe := fun path =>
  -- The place that cannot be told about is asked about last.
  if path.text = "/tmp/Lib.a" then .ok true
  else if path.text = "/B/out/Kit.a" then .error "permission denied"
  else .ok false

end Sample

namespace StandardPass

/-- Of two projects, the first is done with before the probe fails for the second; with all
artefacts there, there is nothing to do. -/
theorem scheduling_asks_in_order_of_sample :
    (scheduling Sample.guarded).run Sample.waiting Sample.waitingLedger =
      ⟨[⟨"/A/out/Kit.a"⟩, ⟨"/tmp/Lib.a"⟩, ⟨"/B/out/Kit.a"⟩],
        .error (.artifactProbe ⟨"/B/out/Kit.a"⟩ "permission denied")⟩ ∧
    ((scheduling Sample.nothingThere).run Sample.waiting Sample.waitingLedger).result =
      .ok ⟨Sample.waiting,
        [.command ["/bin/sh", "-c", "cd /A && export SRCROOT=/A && make a"],
          .command ["/bin/sh", "-c", "cd /A && export SRCROOT=/A && make lib"],
          .command ["/bin/sh", "-c", "cd /B && export SRCROOT=/B && make b"]],
        Sample.waitingLedger⟩ ∧
    ((scheduling fun _ => .ok true).run Sample.waiting Sample.waitingLedger).result =
      .ok ⟨Sample.waiting, [], Sample.waitingLedger⟩ := by
  -- The first two runs are evaluated, and the last follows from the general statement.
  refine ⟨rfl, rfl, ?_⟩
  obtain ⟨_, _, _, _, idle⟩ := scheduling_asks_in_order (fun _ => .ok true) Sample.waiting
    Sample.waitingLedger
  exact idle fun _ _ => rfl

end StandardPass

end BuildGraph
