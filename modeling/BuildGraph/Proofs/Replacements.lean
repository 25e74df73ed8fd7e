import Mathlib.Data.List.Nodup
import BuildGraph.Proofs.Consistency
import BuildGraph.Proofs.Scheduling
import BuildGraph.Proofs.Wiring

/-! The ledger of a run agrees with its workspace: every replacement is noted once, under the name
of its target, and that target is pruned and nothing depends on it any more. -/

namespace BuildGraph

/-- An artefact is no output of a target. -/
theorem Prebuilt.isOutputOf_dependency (a : Prebuilt) (id : TargetId) :
    a.dependency.isOutputOf id = false := by
  -- Its node is that of a framework or of a library.
  unfold dependency
  split <;> rfl

/-- An artefact does not stand for a target. -/
theorem Prebuilt.isTarget_dependency (a : Prebuilt) (id : TargetId) :
    a.dependency.isTarget id = false := by
  -- Its node is that of a framework or of a library.
  unfold dependency
  split <;> rfl

/-- Nothing depends on the target `id` or on its output. -/
def Dependencies.Avoids (d : Dependencies) (id : TargetId) : Prop :=
  -- The sets of all nodes count, whether or not these stand for targets.
  ∀ stored ∈ d.entries, ∀ node ∈ stored.2.toList,
    node.isTarget id = false ∧ node.isOutputOf id = false

namespace Dependencies

variable {d : Dependencies}

/-- What is avoided depends on the identity only. -/
theorem Avoids.congr {a b : TargetId} (same : a.identity = b.identity) (avoids : d.Avoids a) :
    d.Avoids b := by
  -- A node that stands for the one or belongs to it does so for the other.
  intro stored member node given
  rw [← Dependency.isTarget_congr_id same, ← Dependency.isOutputOf_congr_id same]
  exact avoids stored member node given

/-- After redirecting, every dependency is the artefact or one from before that does not concern
the target. -/
theorem mem_of_mem_redirect {id : TargetId} {artifact node : Dependency}
    {stored : Dependency × SortedSet Dependency}
    (member : stored ∈ (d.redirect id artifact).entries)
    (given : node ∈ stored.2.toList) : node = artifact ∨
      (∃ before ∈ d.entries, node ∈ before.2.toList) ∧
        node.isTarget id = false ∧ node.isOutputOf id = false := by
  obtain ⟨before, there, rfl⟩ := List.mem_map.mp member
  simp only at given
  split at given
  · -- Nothing was dropped, so that nothing that is there concerns the target.
    rename_i all
    have spared := List.length_filter_eq_length_iff.mp all node given
    simp only [Bool.and_eq_true, Bool.not_eq_true'] at spared
    exact .inr ⟨⟨before, there, given⟩, spared⟩
  · rcases SortedSet.mem_of_mem_place given with rfl | kept
    · exact .inl rfl
    · obtain ⟨held, spared⟩ := List.mem_filter.mp kept
      simp only [Bool.and_eq_true, Bool.not_eq_true'] at spared
      exact .inr ⟨⟨before, there, held⟩, spared⟩

/-- Once a target gives way to an artefact, it is avoided. -/
theorem avoids_redirect (d : Dependencies) (id : TargetId) (a : Prebuilt) :
    (d.redirect id a.dependency).Avoids id := by
  -- Neither the artefact nor what was kept concerns the target.
  intro stored member node given
  rcases mem_of_mem_redirect member given with rfl | ⟨_, spared⟩
  · exact ⟨a.isTarget_dependency id, a.isOutputOf_dependency id⟩
  · exact spared

/-- What is avoided stays so when another target gives way to an artefact. -/
theorem Avoids.redirect {k : TargetId} (avoids : d.Avoids k) (id : TargetId) (a : Prebuilt) :
    (d.redirect id a.dependency).Avoids k := by
  -- Nothing but the artefact comes in.
  intro stored member node given
  rcases mem_of_mem_redirect member given with rfl | ⟨⟨before, there, held⟩, _⟩
  · exact ⟨a.isTarget_dependency k, a.isOutputOf_dependency k⟩
  · exact avoids before there node held

end Dependencies

namespace Ledger

variable {l : Ledger}

/-- All replacements that are noted. -/
def records (l : Ledger) : List Replacement :=
  -- The files of all names, one after another.
  l.replacements.values.flatten

/-- Every replacement is filed under the name of its target, and no target is noted twice under
its name. -/
structure Filed (l : Ledger) : Prop where
  -- Several targets may share a name, and then they share a file.
  names : ∀ name held, l.replacements.get? name = some held → ∀ r ∈ held, r.target.name = name
  distinct : ∀ name held, l.replacements.get? name = some held →
    (held.map fun r => r.target.identity).Nodup

/-- The noted replacements are those that are filed under some name. -/
theorem mem_records {r : Replacement} :
    r ∈ l.records ↔ ∃ name held, l.replacements.get? name = some held ∧ r ∈ held := by
  -- The records are the lists of all names one after another.
  simp only [records, SortedMap.values, List.mem_flatten, List.mem_map]
  constructor
  · rintro ⟨_, ⟨filed, member, rfl⟩, given⟩
    exact ⟨filed.1, filed.2, SortedMap.mem_entries_iff.mp member, given⟩
  · rintro ⟨name, held, found, given⟩
    exact ⟨held, ⟨(name, held), SortedMap.mem_entries_iff.mpr found, rfl⟩, given⟩

/-- A replaced target is noted. -/
theorem exists_record_of_isReplaced {id : TargetId} (replaced : l.isReplaced id = true) :
    ∃ r ∈ l.records, r.target.identity = id.identity := by
  -- What is found for it is filed under its name.
  obtain ⟨held, found, r, given, same⟩ := isReplaced_iff.mp replaced
  exact ⟨r, mem_records.mpr ⟨id.name, held, found, given⟩, same⟩

/-- What is filed under each name once a replacement is noted. -/
theorem get?_recordReplacement (l : Ledger) (r : Replacement) (name : String) :
    (l.recordReplacement r).replacements.get? name = if name = r.target.name then
      some (((l.replacements.get? r.target.name).getD []).filter (·.target != r.target) ++ [r])
    else l.replacements.get? name := by
  -- Only the list of the one name changes.
  simp only [recordReplacement, SortedMap.get?_alter, Std.LawfulEqOrd.compare_eq_iff_eq]

/-- Noting a replacement brings in no other. -/
theorem mem_of_mem_records {r r' : Replacement} (noted : r' ∈ (l.recordReplacement r).records) :
    r' = r ∨ r' ∈ l.records := by
  obtain ⟨name, held, found, given⟩ := mem_records.mp noted
  rw [get?_recordReplacement] at found
  split at found
  · cases found
    rcases List.mem_append.mp given with earlier | last
    · -- An earlier replacement was filed under the same name.
      have earlier := (List.mem_filter.mp earlier).1
      cases olds : l.replacements.get? r.target.name with
      | none => simp [olds] at earlier
      | some held => exact .inr (mem_records.mpr ⟨_, held, olds, by simpa [olds] using earlier⟩)
    · exact .inl (List.mem_singleton.mp last)
  · exact .inr (mem_records.mpr ⟨name, held, found, given⟩)

/-- An empty ledger is filed as it should be. -/
theorem filed_of_records_eq_nil (empty : l.records = []) : l.Filed := by
  -- Nothing is filed under any name.
  have none : ∀ name held, l.replacements.get? name = some held → ∀ r, r ∉ held := by
    intro name held found r given
    have noted : r ∈ l.records := mem_records.mpr ⟨name, held, found, given⟩
    rw [empty] at noted
    cases noted
  refine ⟨fun name held found r given => absurd given (none name held found r),
    fun name held found => ?_⟩
  rw [List.eq_nil_iff_forall_not_mem.mpr (none name held found)]
  exact .nil

namespace Filed

/-- No target is noted twice. -/
theorem nodup_records (filed : l.Filed) : (l.records.map fun r => r.target.identity).Nodup := by
  -- Replacements that are filed apart have targets of different names.
  rw [records, List.map_flatten, List.nodup_flatten]
  constructor
  · intro ids member
    simp only [SortedMap.values, List.map_map, List.mem_map, Function.comp_apply] at member
    obtain ⟨entry, there, rfl⟩ := member
    exact filed.distinct entry.1 entry.2 (SortedMap.mem_entries_iff.mp there)
  · rw [SortedMap.values, List.map_map, List.pairwise_map]
    refine List.Pairwise.imp_of_mem ?_ l.replacements.ordered
    intro a b first second less k before after
    obtain ⟨r, given, rfl⟩ := List.mem_map.mp before
    obtain ⟨r', also, same⟩ := List.mem_map.mp after
    have name := filed.names a.1 a.2 (SortedMap.mem_entries_iff.mp first) r given
    have name' := filed.names b.1 b.2 (SortedMap.mem_entries_iff.mp second) r' also
    have names : a.1 = b.1 := by
      rw [← name, ← name']
      exact (congrArg Prod.snd same).symm
    simp [names, Std.ReflCmp.compare_self] at less

/-- Noting a replacement keeps the ledger filed as it should be. -/
theorem recordReplacement (filed : l.Filed) (r : Replacement) : (l.recordReplacement r).Filed := by
  -- What was filed under the name before is as it should be, if there was anything.
  have olds : (∀ old ∈ (l.replacements.get? r.target.name).getD [],
        old.target.name = r.target.name) ∧
      (((l.replacements.get? r.target.name).getD []).map fun r => r.target.identity).Nodup := by
    cases found : l.replacements.get? r.target.name with
    | none => simp
    | some held => exact ⟨filed.names _ held found, filed.distinct _ held found⟩
  constructor
  · intro name held found r' given
    rw [get?_recordReplacement] at found
    split at found
    · rename_i here
      cases found
      rcases List.mem_append.mp given with earlier | last
      · rw [here]
        exact olds.1 r' (List.mem_filter.mp earlier).1
      · rw [here, List.mem_singleton.mp last]
    · exact filed.names name held found r' given
  · intro name held found
    rw [get?_recordReplacement] at found
    split at found
    · -- The earlier ones are of other targets than the new one.
      cases found
      rw [List.map_append, List.map_singleton, List.nodup_append]
      refine ⟨olds.2.sublist (List.filter_sublist.map _), by simp, ?_⟩
      intro k before k' last same
      obtain ⟨old, earlier, rfl⟩ := List.mem_map.mp before
      have other := (List.mem_filter.mp earlier).2
      rw [List.mem_singleton.mp last] at same
      rw [bne, TargetId.beq_iff.mpr same] at other
      cases other
    · exact filed.distinct name held found

end Filed

end Ledger

namespace Workspace

variable {w w' : Workspace} {l l' : Ledger}

/-- A target that has given way to an artefact is avoided from then on, and what was avoided before
still is. -/
theorem avoids_replaceAll (w : Workspace) (rs : List Replacement) {id : TargetId}
    (avoids : w.dependencies.Avoids id ∨ id.identity ∈ replacedIn rs) :
    (rs.foldl replace w).dependencies.Avoids id := by
  -- Targets give way one after another.
  induction rs generalizing w with
  | nil => exact avoids.resolve_right (by simp [replacedIn])
  | cons r rest ih =>
    rw [List.foldl_cons]
    refine ih (w.replace r) ?_
    have step : (w.replace r).dependencies =
        w.dependencies.redirect r.target r.artifact.dependency := rfl
    rw [step]
    rcases avoids with before | now
    · exact .inl (before.redirect _ _)
    · rcases List.mem_cons.mp now with here | later
      · exact .inl ((Dependencies.avoids_redirect _ _ _).congr here.symm)
      · exact .inr later

/-- Each replacement is noted once, under the name of its target; that is there, is not live, and
nothing depends on it. -/
structure Agrees (w : Workspace) (l : Ledger) : Prop where
  -- The ledger and the workspace tell the same story.
  filed : l.Filed
  present : ∀ r ∈ l.records, ∃ t, w.ownedTarget? r.target = some t
  pruned : ∀ r ∈ l.records, ¬ w.Live r.target
  avoided : ∀ r ∈ l.records, w.dependencies.Avoids r.target

/-- A ledger without replacements agrees with every workspace. -/
theorem agrees_of_records_eq_nil (empty : l.records = []) : w.Agrees l := by
  -- All that is asked is asked of the records.
  refine ⟨Ledger.filed_of_records_eq_nil empty, ?_, ?_, ?_⟩ <;> simp [empty]

/-- What is noted after several replacements was noted before or is one of them. -/
theorem mem_records_recordAll {rs : List Replacement} {r : Replacement}
    (noted : r ∈ (rs.foldl Ledger.recordReplacement l).records) : r ∈ l.records ∨ r ∈ rs := by
  -- Replacements are noted one after another.
  induction rs generalizing l with
  | nil => exact .inl noted
  | cons first rest ih =>
    rcases ih noted with before | later
    · rcases Ledger.mem_of_mem_records before with rfl | earlier
      · exact .inr (.head _)
      · exact .inl earlier
    · exact .inr (.tail _ later)

/-- Noting several replacements keeps a ledger filed as it should be. -/
theorem filed_recordAll (filed : l.Filed) (rs : List Replacement) :
    (rs.foldl Ledger.recordReplacement l).Filed := by
  -- Replacements are noted one after another.
  induction rs generalizing l with
  | nil => exact filed
  | cons r rest ih => exact ih (filed.recordReplacement r)

/-- In a tidy workspace, what is to be replaced is found under its identity. -/
theorem exists_replaceable (tidy : w.Tidy) {table : ArtifactTable} {r : Replacement}
    (given : r ∈ w.replaceable table) : ∃ t, w.ownedTarget? r.target = some t := by
  -- Only live targets are to be replaced, and those of a tidy workspace are found.
  obtain ⟨t, member, found⟩ := List.mem_filterMap.mp given
  obtain ⟨artifact, _, rfl⟩ := Option.map_eq_some_iff.mp found
  have owned := (tidy.mem_liveTargets.mp member).1
  exact ⟨t, tidy.found owned⟩

/-- A substitution keeps a ledger in agreement with a tidy workspace. -/
theorem Agrees.substitute (agrees : w.Agrees l) (tidy : w.Tidy) {table : ArtifactTable}
    (done : w.substitute table l = .ok (w', l')) : w'.Agrees l' := by
  have narrow := narrows_of_substitute done
  rcases substitute_eq_ok.mp done with ⟨_, rfl, rfl⟩ | ⟨_, cut, rfl⟩
  · exact agrees
  · -- Pruning leaves the dependencies as the replacements have made them.
    have reduced := reduced_of_pruneUnreachable cut
    obtain ⟨needed, _, rfl⟩ := pruneUnreachable_eq_ok.mp cut
    have there : ∀ id, (∃ t, w.ownedTarget? id = some t) →
        ∃ t, (((w.replaceable table).foldl replace w).keepOnly needed).ownedTarget? id =
          some t := by
      intro id ⟨t, found⟩
      obtain ⟨u, also, _⟩ := exists_ownedTarget?_of_outline narrow.outline.symm found
      exact ⟨u, also⟩
    have replaced : ∀ r ∈ w.replaceable table,
        r.target.identity ∈ replacedIn (w.replaceable table) := fun r given =>
      List.mem_map_of_mem given
    refine ⟨filed_recordAll agrees.filed _, fun r noted => ?_, fun r noted live => ?_,
      fun r noted => ?_⟩
    · refine there r.target ?_
      rcases mem_records_recordAll noted with before | now
      · exact agrees.present r before
      · exact exists_replaceable tidy now
    · rcases mem_records_recordAll noted with before | now
      · exact agrees.pruned r before (narrow.live r.target live)
      · have kept := ((reduced.live r.target).mp live).1
        exact ((live_replaceAll w _ r.target).mp kept).2 (replaced r now)
    · refine avoids_replaceAll w _ ?_
      exact (mem_records_recordAll noted).imp (agrees.avoided r) (replaced r)

end Workspace

namespace StandardPass

variable {w : Workspace} {l : Ledger} {o : Outcome}

/-- No pass changes the outline of a workspace. -/
theorem outline_run {pass : StandardPass} (ran : (pass.run w l).result = .ok o) :
    o.workspace.outline = w.outline := by
  -- One case for each pass; scheduling changes nothing at all.
  cases pass with
  | wiring =>
    cases ran
    exact w.outline_wired
  | focus s =>
    obtain ⟨w', l', done, rfl⟩ := run_focus_eq_ok.mp ran
    exact (Selection.focused_of_focus done).outline
  | caching table =>
    obtain ⟨w', l', done, rfl⟩ := run_caching_eq_ok.mp ran
    exact (Workspace.narrows_of_substitute done).outline
  | scheduling probe =>
    obtain ⟨_, _, rfl⟩ := run_scheduling_eq_ok.mp ran
    rfl

/-- Passes that come before caching note no replacement. -/
theorem records_run {pass : StandardPass} (early : pass.stage.rank < Stage.caching.rank)
    (ran : (pass.run w l).result = .ok o) : o.ledger.records = l.records := by
  cases pass with
  | wiring =>
    cases ran
    rfl
  | focus s =>
    -- A focus notes what is requested, and nothing else.
    obtain ⟨w', l', done, rfl⟩ := run_focus_eq_ok.mp ran
    obtain ⟨_, _, _, _, rfl⟩ := Selection.focus_eq_ok.mp done
    rfl
  | _ => simp [stage, Stage.rank] at early

/-- Passes that do not come before caching keep a ledger in agreement with a tidy workspace. -/
theorem agrees_run {pass : StandardPass} (late : ¬ pass.stage.rank < Stage.caching.rank)
    (tidy : w.Tidy) (agrees : w.Agrees l) (ran : (pass.run w l).result = .ok o) :
    o.workspace.Agrees o.ledger := by
  -- Only two of the passes come so late, and one of them changes nothing.
  cases pass with
  | caching table =>
    obtain ⟨w', l', done, rfl⟩ := run_caching_eq_ok.mp ran
    exact agrees.substitute tidy done
  | scheduling probe =>
    obtain ⟨_, _, rfl⟩ := run_scheduling_eq_ok.mp ran
    exact agrees
  | _ => simp [stage, Stage.rank] at late

end StandardPass

namespace Pipeline

variable {w : Workspace} {l : Ledger} {o : Outcome}

/-- No run changes the outline of a workspace. -/
theorem outline_runAll {passes : List StandardPass}
    (ran : (runAll w l (passes.map StandardPass.toPass)).result = .ok o) :
    o.workspace.outline = w.outline := by
  -- The invariant is that the outline is the one from before.
  refine runAll_keeps (fun w' _ => w'.outline = w.outline) ?_ rfl ran
  intro pass member w' l' o' before began
  obtain ⟨standard, _, rfl⟩ := List.mem_map.mp member
  exact (StandardPass.outline_run began).trans before

/-- Where stages never decrease, a ledger that agrees with a tidy workspace still does so in the
end, if nothing was noted before the first pass that caches. -/
theorem agrees_of_runAll {passes : List StandardPass}
    (ordered : passes.Pairwise fun a b => a.stage.rank ≤ b.stage.rank) (tidy : w.Tidy)
    (agrees : w.Agrees l)
    (fresh : l.records = [] ∨ ∀ pass ∈ passes, ¬ pass.stage.rank < Stage.caching.rank)
    (ran : (runAll w l (passes.map StandardPass.toPass)).result = .ok o) :
    o.workspace.Agrees o.ledger := by
  -- The induction is on the passes: the early ones note nothing, and after the first late one
  -- there are late ones only.
  induction passes generalizing w l o with
  | nil =>
    cases ran
    exact agrees
  | cons pass rest ih =>
    obtain ⟨first, last, began, rested, rfl⟩ := runAll_cons_eq_ok.mp ran
    obtain ⟨later, tail⟩ := List.pairwise_cons.mp ordered
    have tidy' : first.workspace.Tidy := tidy.of_outline (StandardPass.outline_run began)
    by_cases early : pass.stage.rank < Stage.caching.rank
    · have empty : l.records = [] := fresh.resolve_right fun late => late pass (.head _) early
      have still : first.ledger.records = [] := (StandardPass.records_run early began).trans empty
      have kept := ih tail tidy' (Workspace.agrees_of_records_eq_nil still) (.inl still) rested
      exact kept
    · have agrees' := StandardPass.agrees_run early tidy agrees began
      have late : ∀ behind ∈ rest, ¬ behind.stage.rank < Stage.caching.rank := by
        intro behind member
        have := later behind member
        omega
      have kept := ih tail tidy' agrees' (.inr late) rested
      exact kept

/-- Whatever standard passes a pipeline is assembled of, on a workspace whose keys are consistent
its ledger agrees with its workspace in the end: every replacement is filed under the name of its
target, no target is noted twice, each of them is there and pruned, and nothing depends on it or on
its output. No target is both live and replaced. -/
theorem replacements_of_run {passes : List StandardPass} {p : Pipeline}
    (assembled : assemble (passes.map StandardPass.toPass) = .ok p) (consistent : w.KeyConsistent)
    (ran : (p.run w).result = .ok o) :
    (∀ filed ∈ o.ledger.replacements.entries, ∀ r ∈ filed.2, filed.1 = r.target.name) ∧
    (o.ledger.records.map fun r => r.target.identity).Nodup ∧
    (∀ r ∈ o.ledger.records,
      (∃ t, o.workspace.ownedTarget? r.target = some t ∧ t.identity = r.target.identity ∧
        t.target.pruned = true) ∧
      ∀ stored ∈ o.workspace.dependencies.entries, ∀ node ∈ stored.2.toList,
        node.isTarget r.target = false ∧ node.isOutputOf r.target = false) ∧
    ∀ t ∈ o.workspace.owned, ¬ (t.target.pruned = false ∧ o.ledger.isReplaced t.id = true) := by
  -- The run starts from an empty ledger, which agrees with everything.
  obtain ⟨same, ordered⟩ := assemble_eq_ok assembled
  rw [run, same] at ran
  rw [List.pairwise_map] at ordered
  have agrees := agrees_of_runAll ordered consistent.tidy
    (Workspace.agrees_of_records_eq_nil rfl) (.inl rfl) ran
  have tidy : o.workspace.Tidy := consistent.tidy.of_outline (outline_runAll ran)
  refine ⟨fun filed member r given => ?_, agrees.filed.nodup_records, fun r noted => ⟨?_, ?_⟩,
    fun t member both => ?_⟩
  · exact (agrees.filed.names _ _ (SortedMap.mem_entries_iff.mp member) r given).symm
  · obtain ⟨t, found⟩ := agrees.present r noted
    have dead := agrees.pruned r noted
    rw [Workspace.live_iff_of_found found, Bool.not_eq_false] at dead
    exact ⟨t, found, tidy _ t found, dead⟩
  · exact agrees.avoided r noted
  · -- What is replaced is noted, and what is noted is not live.
    obtain ⟨live, replaced⟩ := both
    obtain ⟨r, noted, ids⟩ := Ledger.exists_record_of_isReplaced replaced
    have found := tidy.found member
    rw [← Workspace.ownedTarget?_congr ids] at found
    exact agrees.pruned r noted ((Workspace.live_iff_of_found found).mpr live)

/-- The library of the small workspace is noted once, it is pruned, and the application depends on
its artefact instead. -/
theorem replacements_of_sample : ∃ p,
    assemble ((Sample.settings.passes Sample.nothingThere).map StandardPass.toPass) = .ok p ∧
    Sample.workspace.KeyConsistent ∧ (p.run Sample.workspace).result = .ok Sample.outcome ∧
    (Sample.outcome.ledger.records.map fun r => r.target) = [⟨Sample.project.path, "Core"⟩] ∧
    ∀ r ∈ Sample.outcome.ledger.records, ∀ stored ∈ Sample.outcome.workspace.dependencies.entries,
      ∀ node ∈ stored.2.toList, node.isTarget r.target = false := by
  -- The run on the small workspace is known to succeed, which is all that is assumed.
  have assembled : assemble ((Sample.settings.passes Sample.nothingThere).map StandardPass.toPass) =
      .ok (Sample.settings.pipeline Sample.nothingThere) := rfl
  have consistent : Sample.workspace.KeyConsistent := ⟨by decide, by decide⟩
  obtain ⟨_, _, noted, _⟩ := replacements_of_run assembled consistent Sample.run_workspace
  exact ⟨_, assembled, consistent, Sample.run_workspace, by decide,
    fun r given stored member node held => ((noted r given).2 stored member node held).1⟩

end Pipeline

end BuildGraph
