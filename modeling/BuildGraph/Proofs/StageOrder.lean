import BuildGraph.Proofs.Composition

/-! Pipelines are made of exactly those passes whose stages never decrease. Comparing neighbours is
enough to find the first pass that has one of a later stage anywhere ahead of it. -/

namespace BuildGraph

/-- Stages of one rank are the same. -/
theorem Stage.rank_injective : Function.Injective Stage.rank := by
  -- No two of the four have one rank.
  intro a b same
  cases a <;> cases b <;> first | rfl | cases same

/-- Among the passes ahead of a pass there is one of a later stage. -/
def Pass.Behind (pass : Pass) (ahead : List Pass) : Prop :=
  -- The later stage may be anywhere ahead, not only next to the pass.
  ∃ earlier ∈ ahead, pass.stage.rank < earlier.stage.rank

/-- No stage of some passes is later than this one, which is that of one of them. -/
structure Stage.LatestOf (stage : Stage) (passes : List Pass) : Prop where
  -- With both fields the stage is fixed.
  attained : ∃ pass ∈ passes, pass.stage = stage
  bound : ∀ pass ∈ passes, pass.stage.rank ≤ stage.rank

/-- Among some passes, this one has one of a later stage ahead of it, and it is the first of them
that has. -/
structure Pass.FirstBehind (passes ahead : List Pass) (pass : Pass) : Prop where
  -- The parts ahead and behind are lists, so a pass that occurs twice has two places.
  split : ∃ back, passes = ahead ++ pass :: back
  behind : pass.Behind ahead
  first : ∀ front earlier rest, ahead = front ++ earlier :: rest → ¬ earlier.Behind front

/-- Stages never decrease exactly when no pass has one of a later stage ahead of it. -/
theorem ascending_iff {passes : List Pass} : Ascending passes ↔
    ∀ front pass rest, passes = front ++ pass :: rest → ¬ pass.Behind front := by
  constructor
  · rintro ordered front pass rest rfl ⟨earlier, member, less⟩
    have := (List.pairwise_append.mp ordered).2.2 earlier member pass (.head _)
    omega
  · -- The induction is on the passes; the first one is ahead of all others.
    intro placed
    induction passes with
    | nil => exact .nil
    | cons first passes ih =>
      refine .cons (fun pass member => ?_) (ih fun front pass rest split behind => ?_)
      · obtain ⟨front, rest, rfl⟩ := List.append_of_mem member
        exact Nat.le_of_not_lt fun less =>
          placed (first :: front) pass rest rfl ⟨first, .head _, less⟩
      · obtain ⟨earlier, ahead, less⟩ := behind
        exact placed (first :: front) pass rest (by rw [split, List.cons_append])
          ⟨earlier, .tail _ ahead, less⟩

/-- Where stages never decrease, the latest one is that of the last pass. -/
theorem Ascending.latestOf_iff {ahead : List Pass} {last : Pass} {stage : Stage}
    (ordered : Ascending ahead) (ends : ahead.getLast? = some last) :
    stage.LatestOf ahead ↔ stage = last.stage := by
  obtain ⟨front, rfl⟩ := List.getLast?_eq_some_iff.mp ends
  -- All others are ahead of the last one.
  have bound : ∀ pass ∈ front ++ [last], pass.stage.rank ≤ last.stage.rank := by
    intro pass member
    rcases List.mem_append.mp member with earlier | same
    · exact (List.pairwise_append.mp ordered).2.2 pass earlier last (.head _)
    · exact Nat.le_of_eq (congrArg (·.stage.rank) (List.mem_singleton.mp same))
  constructor
  · rintro ⟨⟨pass, member, rfl⟩, above⟩
    exact Stage.rank_injective (Nat.le_antisymm (bound pass member) (above last (by simp)))
  · rintro rfl
    exact ⟨⟨last, by simp, rfl⟩, bound⟩

/-- A pass is found misplaced when it follows one of a later stage, and stages never decrease ahead
of it. -/
theorem misplaced?_eq_some_iff {passes : List Pass} {e : PassError} :
    misplaced? passes = some e ↔ ∃ ahead previous pass back, passes = ahead ++ pass :: back ∧
      ahead.getLast? = some previous ∧ Ascending ahead ∧
      pass.stage.rank < previous.stage.rank ∧
      e = .stageOutOfOrder pass.name pass.stage previous.stage := by
  -- Either nothing is ahead of the misplaced pass but the first one, or the second is ahead too.
  fun_induction misplaced? passes with
  | case1 first second rest less =>
    constructor
    · rintro ⟨⟩
      exact ⟨[first], first, second, rest, rfl, rfl, List.pairwise_singleton _ _, less, rfl⟩
    · rintro ⟨_ | ⟨_, _ | ⟨_, ahead⟩⟩, previous, pass, back, split, ends, above, later, rfl⟩
      · cases ends
      · cases split
        cases ends
        rfl
      · cases split
        exact absurd less (Nat.not_lt.mpr (ascending_cons_cons.mp above).1)
  | case2 first second rest ordered ih =>
    rw [ih]
    constructor
    · rintro ⟨_ | ⟨_, ahead⟩, previous, pass, back, split, ends, above, later, rfl⟩
      · cases ends
      · cases split
        exact ⟨first :: second :: ahead, previous, pass, back, rfl, ends,
          ascending_cons_cons.mpr ⟨Nat.le_of_not_lt ordered, above⟩, later, rfl⟩
    · rintro ⟨_ | ⟨_, _ | ⟨_, ahead⟩⟩, previous, pass, back, split, ends, above, later, rfl⟩
      · cases ends
      · cases split
        cases ends
        exact absurd later ordered
      · cases split
        exact ⟨second :: ahead, previous, pass, back, rfl, ends,
          (ascending_cons_cons.mp above).2, later, rfl⟩
  | case3 passes short =>
    refine iff_of_false (by simp) ?_
    rintro ⟨_ | ⟨first, _ | ⟨second, ahead⟩⟩, previous, pass, back, rfl, ends, _⟩
    · cases ends
    · exact short first pass back rfl
    · exact short first second (ahead ++ pass :: back) rfl

namespace Pipeline

/-- Passes are refused with the error about the misplaced one. -/
theorem assemble_eq_error {passes : List Pass} {e : PassError} :
    assemble passes = .error e ↔ misplaced? passes = some e := by
  -- There is no other reason to refuse passes.
  rw [assemble]
  split
  · rename_i found
    simp [found]
  · rename_i found
    simp [found]

/-- Stages are enforced exactly. Passes make a pipeline, of all of them in their order, if and only
if no stage comes before an earlier one at any two positions. Otherwise they are refused, and the
error is about the first pass that has one of a later stage ahead of it: it tells the name and the
stage of that pass, and the latest of the stages ahead of it. -/
theorem enforces_stages (passes : List Pass) :
    (∀ p, assemble passes = .ok p → p.passes = passes) ∧
    ((∃ p, assemble passes = .ok p) ↔ ∀ i j (later : j < passes.length) (before : i < j),
      passes[i].stage.rank ≤ passes[j].stage.rank) ∧
    ∀ e, assemble passes = .error e ↔ ∃ ahead pass latest,
      Pass.FirstBehind passes ahead pass ∧ latest.LatestOf ahead ∧
      e = .stageOutOfOrder pass.name pass.stage latest := by
  refine ⟨fun p made => (assemble_eq_ok made).1, ?_, fun e => ?_⟩
  · have ordered : (∃ p, assemble passes = .ok p) ↔ Ascending passes :=
      ⟨fun ⟨p, made⟩ => (assemble_eq_ok made).2,
        fun above => (exists_assemble above).imp fun _ => And.left⟩
    rw [ordered, Ascending, List.pairwise_iff_getElem]
    exact ⟨fun above i j later before => above i j (by omega) later before,
      fun above i j _ later before => above i j later before⟩
  · rw [assemble_eq_error, misplaced?_eq_some_iff]
    constructor
    · rintro ⟨ahead, previous, pass, back, split, ends, above, less, rfl⟩
      exact ⟨ahead, pass, previous.stage,
        ⟨⟨back, split⟩, ⟨previous, List.mem_of_getLast? ends, less⟩, ascending_iff.mp above⟩,
        (above.latestOf_iff ends).mpr rfl, rfl⟩
    · rintro ⟨ahead, pass, latest, ⟨⟨back, split⟩, ⟨earlier, member, less⟩, first⟩, greatest, rfl⟩
      have above := ascending_iff.mpr first
      -- There is a pass ahead, and the last one of them has the latest stage.
      have ends := List.getLast?_eq_some_getLast (List.ne_nil_of_mem member)
      obtain rfl := (above.latestOf_iff ends).mp greatest
      exact ⟨ahead, _, pass, back, split, ends, above,
        Nat.lt_of_lt_of_le less (greatest.bound earlier member), rfl⟩

end Pipeline

namespace Sample

/-- Passes of which the third has one of a later stage ahead of it, and so has the last. -/
def misordered : List Pass :=
  -- Neighbours are compared, and the second offence is not told.
  [StandardPass.wiring.toPass, (StandardPass.caching {}).toPass, (StandardPass.focus {}).toPass,
    StandardPass.wiring.toPass]

end Sample

/-- The error is about the third pass, and tells the stage of the second. -/
theorem Pipeline.enforces_stages_of_sample :
    Pass.FirstBehind Sample.misordered (Sample.misordered.take 2) (StandardPass.focus {}).toPass ∧
      Stage.LatestOf .caching (Sample.misordered.take 2) ∧
      assemble Sample.misordered =
        .error (.stageOutOfOrder "focus-targets" .selection .caching) := by
  -- The first two passes are in order, and the third belongs before the second.
  have above : Ascending (Sample.misordered.take 2) :=
    ascending_cons_cons.mpr ⟨by decide, List.pairwise_singleton _ _⟩
  have third : Pass.FirstBehind Sample.misordered (Sample.misordered.take 2)
      (StandardPass.focus {}).toPass :=
    ⟨⟨_, rfl⟩, ⟨(StandardPass.caching {}).toPass, .tail _ (.head _), by decide⟩,
      ascending_iff.mp above⟩
  have latest : Stage.LatestOf .caching (Sample.misordered.take 2) :=
    (above.latestOf_iff rfl).mpr rfl
  have refused := ((enforces_stages Sample.misordered).2.2 _).mpr ⟨_, _, _, third, latest, rfl⟩
  exact ⟨third, latest, refused⟩

end BuildGraph
