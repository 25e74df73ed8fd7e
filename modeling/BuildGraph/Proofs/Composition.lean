import BuildGraph.Proofs.Run

/-! A run of a list of passes is the run of its first part and then of the rest, whatever the passes
do; where the first part fails, the rest has no say. -/

namespace BuildGraph

namespace Attempt

variable {α β γ : Type}

/-- One attempt after another asks what the first does, and then what the other does if it comes to
that. -/
theorem asked_bind (first : Attempt α) (next : α → Attempt β) : (first >>= next).asked =
    first.asked ++ first.result.toOption.elim [] fun a => (next a).asked := by
  change (first.andThen next).asked = _
  rw [andThen]
  -- After an error nothing more is asked.
  split
  · rename_i found
    rw [found]
    rfl
  · rename_i found
    rw [found]
    exact (List.append_nil _).symm

/-- Attempts can be put together in any grouping. -/
instance : LawfulMonad Attempt := LawfulMonad.mk' Attempt
  (fun attempt => by
    refine ext ?_ ?_
    · change (attempt >>= fun a => pure (id a)).asked = _
      rw [asked_bind]
      cases attempt.result <;> exact List.append_nil _
    · change (attempt >>= fun a => pure (id a)).result = _
      rw [result_bind]
      cases attempt.result <;> rfl)
  (fun _ _ => rfl)
  (fun first next last => by
    -- Whether or not the first attempt succeeds, the others ask and answer as they did.
    refine ext ?_ ?_
    · simp only [asked_bind, result_bind]
      cases first.result with
      | error e => simp [Except.toOption]
      | ok a => simp [Except.toOption]
    · simp only [result_bind]
      cases first.result <;> rfl)

end Attempt

namespace Pipeline

/-- A run of passes is the run of the first of them, and then of the rest on what these leave. -/
theorem runAll_append (w : Workspace) (l : Ledger) (front back : List Pass) :
    runAll w l (front ++ back) = do
      let begun ← runAll w l front
      let ended ← runAll begun.workspace begun.ledger back
      return { ended with sideEffects := begun.sideEffects ++ ended.sideEffects } := by
  -- The induction is on the passes in front; their side effects are put together in either way.
  induction front generalizing w l with
  | nil => simp [runAll]
  | cons pass rest ih => simp [runAll, ih, List.append_assoc]

/-- Passes whose stages never decrease make a pipeline. -/
theorem exists_assemble {passes : List Pass}
    (ordered : passes.Pairwise fun a b => a.stage.rank ≤ b.stage.rank) :
    ∃ p, assemble passes = .ok p ∧ p.passes = passes := by
  -- None of the passes is misplaced.
  rw [assemble]
  split
  · exact ⟨_, rfl, rfl⟩
  · rename_i e found
    rw [misplaced?_eq_none_iff.mpr ordered] at found
    cases found

/-- Both parts of a list of passes that makes a pipeline make pipelines. -/
theorem exists_parts {front back : List Pass} {p : Pipeline}
    (assembled : assemble (front ++ back) = .ok p) :
    (∃ first, assemble front = .ok first ∧ first.passes = front) ∧
      ∃ second, assemble back = .ok second ∧ second.passes = back := by
  -- Stages that never decrease along a list never decrease along a part of it.
  obtain ⟨_, ordered⟩ := assemble_eq_ok assembled
  obtain ⟨before, behind, _⟩ := List.pairwise_append.mp ordered
  exact ⟨exists_assemble before, exists_assemble behind⟩

/-- Whatever the passes of a pipeline do, and wherever their list is parted, both parts make
pipelines, and the whole run is that of the first part and then that of the second on the workspace
and the ledger of the first, with the side effects of both in order. Where the first part fails, the
whole run fails with its error, and nothing is asked behind what the first part asks. No passes at
all leave everything as it is. -/
theorem composes :
    (∀ (front back : List Pass) (p : Pipeline), assemble (front ++ back) = .ok p →
      ∃ first second, assemble front = .ok first ∧ assemble back = .ok second ∧
        ∀ (w : Workspace) (l : Ledger),
          (p.run w l = do
            let begun ← first.run w l
            let ended ← second.run begun.workspace begun.ledger
            return { ended with sideEffects := begun.sideEffects ++ ended.sideEffects }) ∧
          ∀ e, (first.run w l).result = .error e →
            (p.run w l).result = .error e ∧ (p.run w l).asked = (first.run w l).asked) ∧
    ∃ none, assemble [] = .ok none ∧ ∀ (w : Workspace) (l : Ledger),
      none.run w l = pure ⟨w, [], l⟩ := by
  refine ⟨fun front back p assembled => ?_, ⟨[], rfl⟩, rfl, fun _ _ => rfl⟩
  obtain ⟨same, _⟩ := assemble_eq_ok assembled
  obtain ⟨⟨first, made, itsFront⟩, second, also, itsBack⟩ := exists_parts assembled
  refine ⟨first, second, made, also, fun w l => ?_⟩
  have parted : p.run w l = do
      let begun ← first.run w l
      let ended ← second.run begun.workspace begun.ledger
      return { ended with sideEffects := begun.sideEffects ++ ended.sideEffects } := by
    simp only [run, same, itsFront, itsBack]
    exact runAll_append w l front back
  refine ⟨parted, fun e failed => ?_⟩
  rw [parted]
  constructor
  · rw [Attempt.result_bind, failed]
    rfl
  · -- There is nothing for the second part to start from.
    rw [Attempt.asked_bind, failed]
    exact List.append_nil _

end Pipeline

namespace Sample

/-- A pass that asks about a place, and then wants a command to be run. -/
def asking (place : String) : Pass where
  -- The question and the command are told by the place, so their order can be seen.
  name := place
  stage := .caching
  run w l := ⟨[⟨place⟩], .ok ⟨w, [.command [place]], l⟩⟩

/-- A pass that asks about a place, and then fails. -/
def failing (place : String) : Pass where
  -- The question is asked before the failure, so it must be kept.
  name := place
  stage := .caching
  run _ _ := ⟨[⟨place⟩], .error (.testPlanNotFound place)⟩

end Sample

namespace Pipeline

/-- Three passes that ask about a place each are run as one and two; with one that fails among
them, the last is not run. -/
theorem composes_of_sample :
    (∃ p first second,
      assemble ([Sample.asking "a"] ++ [Sample.asking "b", Sample.asking "c"]) = .ok p ∧
      assemble [Sample.asking "a"] = .ok first ∧
      assemble [Sample.asking "b", Sample.asking "c"] = .ok second ∧
      (p.run {}).result =
        .ok ⟨{}, [.command ["a"], .command ["b"], .command ["c"]], {}⟩) ∧
    ∃ p, assemble ([Sample.asking "a", Sample.failing "b"] ++ [Sample.asking "c"]) = .ok p ∧
      (p.run {}).result = .error (.testPlanNotFound "b") ∧
      (p.run {}).asked = [⟨"a"⟩, ⟨"b"⟩] := by
  -- Both halves split a list at its first or second pass, and evaluate the parts.
  constructor
  · obtain ⟨first, second, made, also, parted⟩ :=
      composes.1 [Sample.asking "a"] [Sample.asking "b", Sample.asking "c"] ⟨_, rfl⟩ rfl
    refine ⟨_, first, second, rfl, made, also, ?_⟩
    rw [(parted {} {}).1]
    cases made
    cases also
    rfl
  · obtain ⟨first, second, made, also, parted⟩ :=
      composes.1 [Sample.asking "a", Sample.failing "b"] [Sample.asking "c"] ⟨_, rfl⟩ rfl
    have failed : (first.run {}).result = .error (.testPlanNotFound "b") := by
      cases made
      rfl
    obtain ⟨whole, asked⟩ := (parted {} {}).2 _ failed
    refine ⟨_, rfl, whole, asked.trans ?_⟩
    cases made
    rfl

end Pipeline

end BuildGraph
