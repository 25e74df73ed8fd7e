import BuildGraph.Ledger
import BuildGraph.PassError
import BuildGraph.Workspace.Query

/-! A selection of targets is built with all they need, and everything else is pruned. -/

namespace BuildGraph

/-- The targets that a run is about. -/
structure Selection where
  -- The default selects everything that is not external.
  /-- The test plan whose targets are meant, unless names are included. -/
  testPlan : Option String := none
  included : SortedSet String := {}
  excluded : SortedSet String := {}
deriving DecidableEq, Inhabited, Repr

namespace Selection

/-- The filter that targets must pass to be selected themselves. -/
def filter (s : Selection) : TargetFilter :=
  -- Targets of external projects are never selected themselves, but they can be needed.
  ⟨s.testPlan, s.included, s.excluded, true⟩

/-- The selection says which targets are meant, be it by names or by a test plan. -/
def isExplicit (s : Selection) : Bool :=
  -- Excluding names does not make a selection explicit.
  !s.included.isEmpty || s.filter.activePlan?.isSome

/-- The selected targets. -/
def sources (s : Selection) (w : Workspace) : SortedSet OwnedTarget :=
  -- Pruned targets can be selected, since a selection decides anew what is pruned.
  w.select s.filter w.allTargets.toList

/-- The included names that no selected target has. -/
def missing (s : Selection) (w : Workspace) : List String :=
  -- A name counts as missing also where its only targets are excluded or external.
  let found := (s.sources w).toList.map OwnedTarget.name
  s.included.toList.filter fun name => !found.contains name

/-- What is wrong with a selection; a test plan that does not exist comes before names that do not.
-/
def refusal? (s : Selection) (w : Workspace) : Option PassError :=
  -- A plan is checked only where it has a say.
  match s.filter.activePlan?.filter fun plan => (w.testPlan? plan).isNone with
  | some plan => some (.testPlanNotFound plan)
  | none => if s.missing w = [] then none else some (.targetsNotFound (s.missing w))

/-- The selected targets and all they need. -/
def closure (s : Selection) (w : Workspace) : Except PassError (SortedSet OwnedTarget) :=
  -- Nothing is searched for a selection that is refused.
  match s.refusal? w with
  | some e => .error e
  | none => (w.closure (s.sources w)).mapError .cyclicDependency

/-- The selected targets that later passes are told of. -/
def requested (s : Selection) (w : Workspace) : List TargetId :=
  -- A selection that says nothing leaves no trace in the ledger.
  if s.isExplicit then (s.sources w).toList.map OwnedTarget.id else []

/-- The workspace with everything pruned but the selected targets and all they need, and the
ledger with the targets that were selected by name or by a test plan. -/
def focus (s : Selection) (w : Workspace) (l : Ledger) :
    Except PassError (Workspace × Ledger) := do
  -- The flag is set anew for every target, so what an earlier selection pruned can come back.
  let needed ← s.closure w
  let kept : SortedSet TargetId := .collect (needed.toList.map OwnedTarget.id)
  let focused := w.mapTargets fun path t => { t with pruned := !kept.contains ⟨path, t.name⟩ }
  return (focused, l.recordRequested (s.requested w))

end Selection

end BuildGraph
