import BuildGraph.Proofs.Liveness

/-! A focus succeeds unless its selection is refused or leads to a loop, and then what is live is
what the selection needs. -/

namespace BuildGraph

open Relation

namespace Workspace

/-- What a focus makes of a workspace: the targets that some sources need are live, and no
others. -/
structure Focused (w' w : Workspace) (sources : List OwnedTarget) : Prop where
  -- Needs are those of the workspace before, and liveness is that of the one after.
  outline : w'.outline = w.outline
  edges : ∀ id, w'.targetEdges id = w.targetEdges id
  live : ∀ id, w'.Live id ↔ ∃ t, w.ownedTarget? id = some t ∧ w.Needs sources t.identity
  acyclic : ∀ k, w.Needs sources k → ¬ TransGen w.Leads k k

namespace Focused

variable {w w' : Workspace} {sources : List OwnedTarget}

/-- The targets of a focused workspace lead to the same as before. -/
theorem leads (focused : w'.Focused w sources) : w'.Leads = w.Leads :=
  -- Edges and outline are all that it takes to lead anywhere.
  leads_of_outline focused.outline focused.edges

/-- A live target of a focused workspace is needed. -/
theorem needs (focused : w'.Focused w sources) {id : TargetId} {t : OwnedTarget}
    (found : w'.ownedTarget? id = some t) (live : w'.Live id) : w.Needs sources t.identity := by
  -- What is found after the focus has the identity of what was found before.
  obtain ⟨u, there, needed⟩ := (focused.live id).mp live
  obtain ⟨v, also, outline⟩ := exists_ownedTarget?_of_outline focused.outline found
  have same : u = v := by simpa [there] using also
  have ids : t.id = u.id := by rw [same, OwnedTarget.id_of_outline outline]
  rwa [OwnedTarget.identity, ids]

/-- A focused workspace is sustained, since closures are closed under target edges. -/
theorem sustained (focused : w'.Focused w sources) : w'.Sustained := by
  -- An edge of a needed target leads to a needed one.
  intro id t found live edge next d there
  obtain ⟨e, given, same⟩ := exists_ownedTarget?_of_outline focused.outline there
  rw [focused.edges] at next
  have step : w.Leads t.identity e.identity := leads_iff.mpr ⟨edge, next, e, given, rfl⟩
  have needed := (focused.needs found live).tail step
  exact (focused.live edge).mpr ⟨e, given, needed⟩

/-- A focused workspace has no loops below its live targets, since none was met below its
sources. -/
theorem loopFree (focused : w'.Focused w sources) : w'.LoopFree := by
  -- What a live target leads to is needed as well.
  intro id t found live k path
  rw [focused.leads] at path ⊢
  obtain ⟨source, given, before⟩ := focused.needs found live
  exact focused.acyclic k ⟨source, given, before.trans path⟩

end Focused

end Workspace

namespace Selection

variable {s : Selection} {w w' : Workspace} {l l' : Ledger}

/-- What is kept and what is pruned once the targets that are needed are known. -/
def focusOn (w : Workspace) (needed : SortedSet OwnedTarget) : Workspace :=
  -- What a focus does to a workspace, without the question whether it can.
  w.mapTargets fun path t => { t with
    pruned := !(SortedSet.collect (needed.toList.map OwnedTarget.id)).contains ⟨path, t.name⟩ }

/-- A focus succeeds where its selection is not refused and has a closure. -/
theorem focus_eq_ok : s.focus w l = .ok (w', l') ↔ s.refusal? w = none ∧
    ∃ needed, w.closure (s.sources w) = .ok needed ∧ w' = focusOn w needed ∧
      l' = l.recordRequested (s.requested w) := by
  -- The refusal is looked at first, and then the closure.
  rw [focus, closure]
  cases s.refusal? w with
  | some e => simp
  | none =>
    cases w.closure (s.sources w) with
    | error loop => simp
    | ok needed =>
      simp only [ok_bind, mapError_ok, pure, Except.pure, Except.ok.injEq, Prod.mk.injEq, true_and,
        exists_eq_left']
      exact and_congr eq_comm eq_comm

/-- A focus fails where its selection is refused, or else where what that needs has a loop. -/
theorem focus_eq_error {e : PassError} : s.focus w l = .error e ↔ s.refusal? w = some e ∨
    s.refusal? w = none ∧ ∃ loop, w.closure (s.sources w) = .error loop ∧
      e = .cyclicDependency loop := by
  -- The refusal is looked at first, and then the closure.
  rw [focus, closure]
  cases s.refusal? w with
  | some e => simp
  | none =>
    cases w.closure (s.sources w) with
    | error loop => simp [eq_comm]
    | ok needed => simp [pure, Except.pure]

/-- A focus keeps targets by their identities only. -/
theorem focusOn_congr {needed' needed : SortedSet OwnedTarget}
    (ids : needed'.toList.map OwnedTarget.id = needed.toList.map OwnedTarget.id) :
    focusOn w needed' = focusOn w needed := by
  -- The targets to keep enter only as a list of identities.
  simp only [focusOn, ids]

/-- A focus on a workspace with the same outline and the same target edges keeps the same targets,
or fails for the same reason. -/
theorem focus_of_outline (outline : w'.outline = w.outline)
    (edges : ∀ id, w'.targetEdges id = w.targetEdges id) : s.focus w' l =
      (s.closure w).map fun needed => (focusOn w' needed, l.recordRequested (s.requested w)) := by
  -- The same targets are asked for, and the same selections are refused.
  have ids := s.sources_id_of_outline outline
  have requested : s.requested w' = s.requested w := by
    rw [Selection.requested, Selection.requested, ids]
  have refused := s.refusal?_of_outline outline
  -- The closures have the same identities, or the same loops.
  have closures := Workspace.id_closure_of_outline outline edges ids
  rw [focus, Selection.closure, Selection.closure, refused]
  cases s.refusal? w with
  | some e => rfl
  | none =>
    cases closed : w.closure (s.sources w) with
    | error loop =>
      cases closed' : w'.closure (s.sources w') with
      | error loop' => simpa [closed, closed', Except.map] using closures
      | ok needed' => simp [closed, closed', Except.map] at closures
    | ok needed =>
      cases closed' : w'.closure (s.sources w') with
      | error loop' => simp [closed, closed', Except.map] at closures
      | ok needed' =>
        simp only [closed, closed', Except.map, Except.ok.injEq] at closures
        show Except.ok (focusOn w' needed', l.recordRequested (s.requested w')) =
          Except.ok (focusOn w' needed, l.recordRequested (s.requested w))
        rw [focusOn_congr closures, requested]

/-- What a focus leaves is focused on the selected targets. -/
theorem focused_of_focus (done : s.focus w l = .ok (w', l')) :
    w'.Focused w (s.sources w).toList := by
  -- What a closure has is all that its sources need.
  obtain ⟨_, needed, closed, rfl, _⟩ := focus_eq_ok.mp done
  obtain ⟨members, acyclic⟩ := Workspace.closure_eq_ok closed
  refine ⟨w.outline_mapTargets fun _ _ => rfl, fun _ => rfl, fun id => ?_, acyclic⟩
  -- A target is kept when its identity is one of those that are needed.
  rw [focusOn, Workspace.live_mapTargets]
  refine exists_congr fun t => and_congr_right fun _ => ?_
  rw [Bool.not_eq_false', SortedSet.contains_collect_id, ← members, List.map_map]
  rfl

end Selection

end BuildGraph
