import BuildGraph.Pass.Standard
import BuildGraph.Pipeline
import BuildGraph.Proofs.Matching

/-! A run succeeds when each of its passes does in turn, and pipelines are made of passes whose
stages never decrease. -/

namespace BuildGraph

namespace Attempt

variable {α β γ : Type}

/-- Attempts with the same questions and the same result are the same. -/
theorem ext {a b : Attempt α} (asked : a.asked = b.asked) (result : a.result = b.result) :
    a = b := by
  -- There are no other fields.
  cases a; cases b; cases asked; cases result; rfl

/-- A value is its own result. -/
@[simp] theorem result_pure (a : α) : (pure a : Attempt α).result = .ok a :=
  -- The attempt is made of its value and of no questions.
  rfl

/-- A result that asks about nothing is the result of its attempt. -/
@[simp] theorem result_ofExcept (result : Except PassError α) : (ofExcept result).result = result :=
  -- The attempt is made of its result and of no questions.
  rfl

/-- The result of one attempt after another is the one result after the other. -/
theorem result_bind (first : Attempt α) (next : α → Attempt β) :
    (first >>= next).result = first.result >>= fun a => (next a).result := by
  -- The second attempt is made only if there is a value for it.
  change (first.andThen next).result = _
  rw [andThen]
  split <;> rename_i found <;> rw [found] <;> rfl

/-- One attempt after another succeeds when both do. -/
theorem result_bind_eq_ok {first : Attempt α} {next : α → Attempt β} {b : β} :
    (first >>= next).result = .ok b ↔ ∃ a, first.result = .ok a ∧ (next a).result = .ok b := by
  -- It is said of the results, which come one after the other.
  rw [result_bind, bind_eq_ok_iff]

/-- One attempt after another fails as the first of them that does. -/
theorem result_bind_eq_error {first : Attempt α} {next : α → Attempt β} {e : PassError} :
    (first >>= next).result = .error e ↔
      first.result = .error e ∨ ∃ a, first.result = .ok a ∧ (next a).result = .error e := by
  -- It is said of the results, which come one after the other.
  rw [result_bind, bind_eq_error_iff]

end Attempt

/-- Stages never decrease. -/
def Ascending (passes : List Pass) : Prop :=
  -- All pairs are compared, and not only neighbours.
  passes.Pairwise fun a b => a.stage.rank ≤ b.stage.rank

/-- Stages never decrease where the first two do not and those behind the first do not. -/
theorem ascending_cons_cons {first second : Pass} {rest : List Pass} :
    Ascending (first :: second :: rest) ↔
      first.stage.rank ≤ second.stage.rank ∧ Ascending (second :: rest) := by
  simp only [Ascending, List.pairwise_cons (l := second :: rest), List.forall_mem_cons]
  refine ⟨fun ⟨⟨next, _⟩, rest⟩ => ⟨next, rest⟩, fun ⟨next, above⟩ => ⟨⟨next, ?_⟩, above⟩⟩
  -- What is no later than the second pass is no later than those behind it.
  intro later member
  exact Nat.le_trans next ((List.pairwise_cons.mp above).1 later member)

namespace Pipeline

variable {w : Workspace} {l : Ledger}

/-- A run succeeds when its first pass does and the rest does from there. -/
theorem runAll_cons_eq_ok {pass : Pass} {rest : List Pass} {o : Outcome} :
    (runAll w l (pass :: rest)).result = .ok o ↔ ∃ first last,
      (pass.run w l).result = .ok first ∧
        (runAll first.workspace first.ledger rest).result = .ok last ∧
          o = { last with sideEffects := first.sideEffects ++ last.sideEffects } := by
  -- The side effects of both parts are put together once both have succeeded.
  rw [runAll, Attempt.result_bind_eq_ok]
  refine exists_congr fun first => ?_
  rw [Attempt.result_bind_eq_ok]
  constructor
  · rintro ⟨ran, last, rested, made⟩
    cases made
    exact ⟨last, ran, rested, rfl⟩
  · rintro ⟨last, ran, rested, rfl⟩
    exact ⟨ran, last, rested, rfl⟩

/-- A run fails as its first pass does, or as the rest does from there. -/
theorem runAll_cons_eq_error {pass : Pass} {rest : List Pass} {e : PassError} :
    (runAll w l (pass :: rest)).result = .error e ↔ (pass.run w l).result = .error e ∨
      ∃ first, (pass.run w l).result = .ok first ∧
        (runAll first.workspace first.ledger rest).result = .error e := by
  -- Putting the side effects together does not fail.
  rw [runAll, Attempt.result_bind_eq_error]
  refine or_congr_right (exists_congr fun first => and_congr_right fun _ => ?_)
  rw [Attempt.result_bind_eq_error]
  simp

/-- What every pass of a run keeps is kept by the whole run. -/
theorem runAll_keeps (holds : Workspace → Ledger → Prop) {passes : List Pass}
    (keeps : ∀ pass ∈ passes, ∀ w l o, holds w l → (pass.run w l).result = .ok o →
      holds o.workspace o.ledger)
    {o : Outcome} (start : holds w l) (ran : (runAll w l passes).result = .ok o) :
    holds o.workspace o.ledger := by
  -- The induction is on the passes; each takes what holds to the next.
  induction passes generalizing w l o with
  | nil =>
    cases ran
    exact start
  | cons pass rest ih =>
    obtain ⟨first, last, began, rested, rfl⟩ := runAll_cons_eq_ok.mp ran
    have middle := keeps pass (.head _) w l first start began
    have kept := ih (fun later member => keeps later (.tail _ member)) middle rested
    exact kept

/-- What one pass of a run brings about, whatever it is given, holds in the end if all passes keep
it. -/
theorem runAll_establishes (holds : Workspace → Ledger → Prop) {passes : List Pass} {pass : Pass}
    (member : pass ∈ passes)
    (brings : ∀ w l o, (pass.run w l).result = .ok o → holds o.workspace o.ledger)
    (keeps : ∀ pass ∈ passes, ∀ w l o, holds w l → (pass.run w l).result = .ok o →
      holds o.workspace o.ledger)
    {o : Outcome} (ran : (runAll w l passes).result = .ok o) : holds o.workspace o.ledger := by
  -- The induction is on the passes up to the one that brings it about; those behind keep it.
  induction passes generalizing w l o with
  | nil => cases member
  | cons first rest ih =>
    obtain ⟨mid, last, began, rested, rfl⟩ := runAll_cons_eq_ok.mp ran
    have later : ∀ pass ∈ rest, ∀ w l o, holds w l → (pass.run w l).result = .ok o →
        holds o.workspace o.ledger := fun pass behind => keeps pass (.tail _ behind)
    show holds last.workspace last.ledger
    rcases List.mem_cons.mp member with rfl | behind
    · have start : holds mid.workspace mid.ledger := brings w l mid began
      exact runAll_keeps holds later start rested
    · -- The first pass has no say, since a later one brings it about.
      exact ih behind later rested

/-- No pass is misplaced exactly when stages never decrease. -/
theorem misplaced?_eq_none_iff {passes : List Pass} :
    misplaced? passes = none ↔ passes.Pairwise fun a b => a.stage.rank ≤ b.stage.rank := by
  -- It is enough to compare neighbours.
  fun_induction misplaced? passes with
  | case1 first second rest less =>
    refine iff_of_false (by simp) fun above => ?_
    exact Nat.not_le.mpr less (ascending_cons_cons.mp above).1
  | case2 first second rest ordered ih =>
    rw [ih]
    exact (ascending_cons_cons.trans (and_iff_right (Nat.le_of_not_lt ordered))).symm
  | case3 passes short =>
    match passes, short with
    | [], _ => simp
    | [_], _ => simp
    | first :: second :: rest, short => exact absurd rfl (short first second rest)

/-- The pipeline that is assembled of some passes runs them in order of their stages. -/
theorem assemble_eq_ok {passes : List Pass} {p : Pipeline} (assembled : assemble passes = .ok p) :
    p.passes = passes ∧ passes.Pairwise fun a b => a.stage.rank ≤ b.stage.rank := by
  -- A pipeline is made only where no pass is misplaced.
  rw [assemble] at assembled
  split at assembled
  · rename_i found
    cases assembled
    exact ⟨rfl, misplaced?_eq_none_iff.mp found⟩
  · cases assembled

end Pipeline

namespace StandardPass

variable {w : Workspace} {l : Ledger} {o : Outcome}

/-- A pass succeeds with its name on it as it does without. -/
@[simp] theorem run_toPass (pass : StandardPass) : pass.toPass.run w l = pass.run w l :=
  -- The pass runs as the standard pass does.
  rfl

/-- Wiring always succeeds. -/
theorem run_wiring : (wiring.run w l).result = .ok ⟨w.wired, [], l⟩ :=
  -- Nothing is asked, and nothing can fail.
  rfl

/-- A result with no side effects comes from a workspace and a ledger. -/
theorem map_eq_ok {made : Except PassError (Workspace × Ledger)} :
    (made.map fun (w, l) => (⟨w, [], l⟩ : Outcome)) = .ok o ↔
      ∃ w' l', made = .ok (w', l') ∧ o = ⟨w', [], l'⟩ := by
  -- Only a success has a workspace and a ledger to be made into an outcome.
  cases made with
  | error e => simp [Except.map]
  | ok made =>
    constructor
    · intro same
      cases same
      exact ⟨made.1, made.2, rfl, rfl⟩
    · rintro ⟨w', l', same, rfl⟩
      cases same
      rfl

/-- The pass that focuses succeeds with what the selection makes of its input. -/
theorem run_focus_eq_ok {s : Selection} : ((focus s).run w l).result = .ok o ↔
    ∃ w' l', s.focus w l = .ok (w', l') ∧ o = ⟨w', [], l'⟩ :=
  -- The pass only arranges what the focus makes.
  map_eq_ok

/-- The pass that focuses fails as the selection does. -/
theorem run_focus_eq_error {s : Selection} {e : PassError} :
    ((focus s).run w l).result = .error e ↔ s.focus w l = .error e := by
  -- Errors are handed on as they are.
  simp only [run, Attempt.result_ofExcept]
  cases s.focus w l <;> simp [Except.map]

/-- The pass that caches succeeds with what the substitution makes of its input. -/
theorem run_caching_eq_ok {table : ArtifactTable} : ((caching table).run w l).result = .ok o ↔
    ∃ w' l', w.substitute table l = .ok (w', l') ∧ o = ⟨w', [], l'⟩ :=
  -- The pass only arranges what the substitution makes.
  map_eq_ok

/-- The pass that caches fails as the substitution does. -/
theorem run_caching_eq_error {table : ArtifactTable} {e : PassError} :
    ((caching table).run w l).result = .error e ↔ w.substitute table l = .error e := by
  -- Errors are handed on as they are.
  simp only [run, Attempt.result_ofExcept]
  cases w.substitute table l <;> simp [Except.map]

/-- The pass that schedules leaves everything as it is, and asks for the commands. -/
theorem run_scheduling_eq_ok {probe : Probe} : ((scheduling probe).run w l).result = .ok o ↔
    ∃ effects, (w.schedule l probe).result = .ok effects ∧ o = ⟨w, effects, l⟩ := by
  -- The pass only arranges what the schedule comes to.
  rw [run, Attempt.result_bind_eq_ok]
  simp [eq_comm]

/-- The pass that schedules fails as the schedule does. -/
theorem run_scheduling_eq_error {probe : Probe} {e : PassError} :
    ((scheduling probe).run w l).result = .error e ↔ (w.schedule l probe).result = .error e := by
  -- What comes behind the schedule cannot fail.
  rw [run, Attempt.result_bind_eq_error]
  simp

end StandardPass

namespace Pipeline

variable {w w' : Workspace} {l l' : Ledger} {o : Outcome}

/-- A run that starts with a focus comes to what the rest does from there. -/
theorem runAll_focus {s : Selection} {rest : List Pass}
    (done : s.focus w l = .ok (w', l')) (rested : (runAll w' l' rest).result = .ok o) :
    (runAll w l ((StandardPass.focus s).toPass :: rest)).result = .ok o :=
  -- The focus asks for no commands that would have to be put in front.
  runAll_cons_eq_ok.mpr ⟨_, o, StandardPass.run_focus_eq_ok.mpr ⟨w', l', done, rfl⟩, rested, rfl⟩

/-- A run that starts with a substitution comes to what the rest does from there. -/
theorem runAll_caching {table : ArtifactTable} {rest : List Pass}
    (done : w.substitute table l = .ok (w', l')) (rested : (runAll w' l' rest).result = .ok o) :
    (runAll w l ((StandardPass.caching table).toPass :: rest)).result = .ok o :=
  -- The substitution asks for no commands that would have to be put in front.
  runAll_cons_eq_ok.mpr
    ⟨_, o, StandardPass.run_caching_eq_ok.mpr ⟨w', l', done, rfl⟩, rested, rfl⟩

/-- A run of nothing but a schedule that succeeds. -/
theorem runAll_scheduling {probe : Probe} {effects : List SideEffect}
    (asked : (w.schedule l probe).result = .ok effects) :
    (runAll w l [(StandardPass.scheduling probe).toPass]).result = .ok ⟨w, effects, l⟩ := by
  -- There are no passes behind it, and no commands besides its own.
  refine runAll_cons_eq_ok.mpr ⟨_, ⟨w, [], l⟩,
    StandardPass.run_scheduling_eq_ok.mpr ⟨effects, asked, rfl⟩, rfl, ?_⟩
  simp

end Pipeline

end BuildGraph
