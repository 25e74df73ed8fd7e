import BuildGraph.Proofs.Identity
import BuildGraph.Proofs.Spelling.Collections
import BuildGraph.Proofs.Spelling.Paths

/-! What it takes for the parts of workspaces and ledgers to be alike: paths may be spelled, and
targets declared, in different ways, and everything else has to be the same. -/

namespace BuildGraph

namespace Path

variable {a b base base' next next' : Path}

instance : Std.LawfulBEqOrd Path where
  compare_eq_iff_beq := beq_iff_compare.symm

/-- Paths are alike when they have the same components. -/
theorem alike_iff : Alike a b ↔ a.components = b.components :=
  -- Likeness agrees with the order, and that looks at components.
  beq_iff_compare.trans compare_eq_iff

/-- Every path is alike to itself. -/
theorem alike_refl (p : Path) : Alike p p :=
  -- It has its own components.
  alike_iff.mpr rfl

/-- Bases and ways that are alike lead to places that are alike. -/
theorem alike_join (same : Alike base base') (also : Alike next next') :
    Alike (base.join next) (base'.join next') :=
  -- The components of a joined path are made of those of the two.
  alike_iff.mpr (components_join_congr (alike_iff.mp same) (alike_iff.mp also))

end Path

namespace TargetId

variable {a b : TargetId}

instance : Std.LawfulBEqOrd TargetId where
  compare_eq_iff_beq := compare_eq_iff.trans beq_iff.symm

/-- Identities are alike when nothing tells their targets apart. -/
theorem alike_iff : Alike a b ↔ a.identity = b.identity :=
  -- Likeness compares what identities are made of.
  beq_iff

/-- Every identity is alike to itself. -/
theorem alike_refl (id : TargetId) : Alike id id :=
  -- It has its own parts.
  alike_iff.mpr rfl

/-- Identities are alike when their paths are, and their names are the same. -/
theorem alike_iff_parts : Alike a b ↔ Alike a.path b.path ∧ a.name = b.name := by
  -- An identity is the components of a path and a name.
  rw [alike_iff, Path.alike_iff, identity, identity, Prod.mk.injEq]

/-- Identities that are alike have the same name. -/
theorem alike_name (same : Alike a b) : Alike a.name b.name :=
  -- The name is one of the parts.
  beq_iff_eq.mpr (alike_iff_parts.mp same).2

/-- Whether identities are like each other does not depend on their spellings. -/
theorem beq_alike {a' b' : TargetId} (same : Alike a a') (also : Alike b b') :
    (a == b) = (a' == b') := by
  -- Both sides compare the same identities.
  rw [Bool.eq_iff_iff, beq_iff, beq_iff, alike_iff.mp same, alike_iff.mp also]

end TargetId

namespace Dependency

variable {a b : Dependency}

/-- Nodes are alike when they are of one kind and have the same name, linking and place. -/
theorem alike_iff : Alike a b ↔ a.rank = b.rank ∧ a.label = b.label ∧ Alike a.place b.place ∧
    a.linking = b.linking := by
  -- Nodes of different kinds differ in rank, and those of one kind in what they carry.
  cases a <;> cases b <;>
    simp [Alike, rank, label, place, linking, BEq.beq, instBEqDependency.beq]
  -- The kinds without a place are given the same one.
  · exact fun _ => rfl
  · exact fun _ => rfl

instance : Std.LawfulBEqOrd Dependency where
  compare_eq_iff_beq {a b} := by
    change compareLex (compareOn rank) (compareLex (compareOn label)
      (compareLex (compareOn place) (compareOn linking))) a b = .eq ↔ Alike a b
    rw [alike_iff, compareLex_eq_eq, compareLex_eq_eq, compareLex_eq_eq]
    refine and_congr (Std.LawfulEqOrd.compare_eq_iff_eq (a := a.rank) (b := b.rank)) <|
      and_congr (Std.LawfulEqOrd.compare_eq_iff_eq (a := a.label) (b := b.label)) <|
        and_congr Path.beq_iff_compare.symm ?_
    -- The ways of linking are told apart by their ranks.
    change compare a.linking b.linking = .eq ↔ _
    cases a.linking <;> cases b.linking <;> decide

/-- Every node is a spelling of itself. -/
theorem alike_refl (a : Dependency) : Alike a a :=
  -- Everything compares equal to itself.
  alike_iff_compare.mpr Std.ReflCmp.compare_self

/-- The nodes of targets with identities that are alike are alike. -/
theorem alike_toDependency {id id' : TargetId} (same : Alike id id') :
    Alike id.toDependency id'.toDependency := by
  -- The node of a target is made of its path and its name.
  obtain ⟨paths, names⟩ := TargetId.alike_iff_parts.mp same
  exact alike_iff.mpr ⟨rfl, names, paths, rfl⟩

/-- Nodes that are alike stand for targets with identities that are alike. -/
theorem rel_targetId? (same : Alike a b) : Option.Rel Alike a.targetId? b.targetId? := by
  obtain ⟨ranks, labels, places, _⟩ := alike_iff.mp same
  -- Only the nodes of targets stand for any.
  cases a <;> cases b <;> first | exact .none | cases ranks
  exact .some (TargetId.alike_iff_parts.mpr ⟨places, labels⟩)

/-- Nodes that are alike are outputs of the same targets. -/
theorem isOutputOf_alike {id id' : TargetId} (ids : Alike id id') (same : Alike a b) :
    a.isOutputOf id = b.isOutputOf id' := by
  -- The target can be exchanged first, and the node next.
  rw [isOutputOf_congr_id (TargetId.alike_iff.mp ids)]
  exact isOutputOf_congr (alike_iff_compare.mp same) id'

/-- Nodes that are alike stand for the same targets. -/
theorem isTarget_alike {id id' : TargetId} (ids : Alike id id') (same : Alike a b) :
    a.isTarget id = b.isTarget id' := by
  -- The nodes name identities that are alike, or none.
  rw [isTarget_congr_id (TargetId.alike_iff.mp ids), Bool.eq_iff_iff, isTarget_iff, isTarget_iff]
  have named := rel_targetId? same
  generalize a.targetId? = x at named ⊢
  generalize b.targetId? = y at named ⊢
  cases named with
  | none => rfl
  | some pair => simp [TargetId.alike_iff.mp pair]

end Dependency

section Parts

-- Records are alike when they agree field by field: where a field can hold a path, it has to be
-- alike, and it has to be the same everywhere else.

/-- Inputs that are alike are declared by paths that are, or by none. -/
theorem ForeignInput.rel_declaredPath? {a b : ForeignInput} (same : Alike a b) :
    Option.Rel Alike a.declaredPath? b.declaredPath? := by
  -- Inputs of different kinds are not alike.
  cases a <;> cases b <;> first | exact .none | exact .some same | cases same

/-- Artefacts of foreign builds are alike when they are left in places that are. -/
theorem ForeignArtifact.alike_iff {a b : ForeignArtifact} :
    Alike a b ↔ Alike a.path b.path ∧ a.linking = b.linking := by
  -- Artefacts are compared field by field.
  change (a.path == b.path && a.linking == b.linking) = true ↔ _
  simp only [Bool.and_eq_true, beq_iff_eq, Alike]

/-- Foreign builds are alike when they run the same script. -/
theorem ForeignBuild.alike_iff {a b : ForeignBuild} :
    Alike a b ↔ a.script = b.script ∧ Alike a.inputs b.inputs ∧ Alike a.output b.output := by
  -- Foreign builds are compared field by field.
  change (a.script == b.script && (a.inputs == b.inputs && a.output == b.output)) = true ↔ _
  simp only [Bool.and_eq_true, beq_iff_eq, Alike]

/-- Phases are alike when they run the same script at the same time. -/
theorem BuildPhase.alike_iff {a b : BuildPhase} : Alike a b ↔ a.name = b.name ∧
    a.order = b.order ∧ a.script = b.script ∧ Alike a.inputPaths b.inputPaths ∧
      Alike a.outputPaths b.outputPaths := by
  -- Phases are compared field by field.
  change (a.name == b.name && (a.order == b.order && (a.script == b.script &&
    (a.inputPaths == b.inputPaths && a.outputPaths == b.outputPaths)))) = true ↔ _
  simp only [Bool.and_eq_true, beq_iff_eq, Alike]

/-- Targets are alike when they are of one name, and carry what is alike. -/
theorem Target.alike_iff {a b : Target} : Alike a b ↔ a.name = b.name ∧ a.product = b.product ∧
    a.pruned = b.pruned ∧ Alike a.phases b.phases ∧ a.tags = b.tags ∧
      Alike a.foreignBuild b.foreignBuild := by
  -- Tags are no paths, and so they are the same when they are alike.
  have tags : (a.tags == b.tags) = true ↔ a.tags = b.tags := by
    change (a.tags.toList == b.tags.toList) = true ↔ _
    rw [beq_iff_eq, SortedSet.ext_iff]
  change (a.name == b.name && (a.product == b.product && (a.pruned == b.pruned &&
    (a.phases == b.phases && (a.tags == b.tags && a.foreignBuild == b.foreignBuild))))) = true ↔ _
  simp only [Bool.and_eq_true, tags, beq_iff_eq, Alike]

/-- Test plans are alike when they are of one name, and list targets that are alike. -/
theorem TestPlan.alike_iff {a b : TestPlan} :
    Alike a b ↔ a.name = b.name ∧ Alike a.targets b.targets := by
  -- Test plans are compared field by field.
  change (a.name == b.name && a.targets == b.targets) = true ↔ _
  simp only [Bool.and_eq_true, beq_iff_eq, Alike]

/-- Projects are alike when they declare targets that are, in whatever order. -/
theorem Project.alike_iff {a b : Project} : Alike a b ↔ Alike a.path b.path ∧ a.name = b.name ∧
    a.origin = b.origin ∧ Alike a.targets b.targets ∧ Alike a.testPlans b.testPlans := by
  -- Projects are compared field by field.
  change (a.path == b.path && (a.name == b.name && (a.origin == b.origin &&
    (a.targets == b.targets && a.testPlans == b.testPlans)))) = true ↔ _
  simp only [Bool.and_eq_true, beq_iff_eq, Alike]

/-- Workspaces are alike when their projects and their dependencies are. -/
theorem Workspace.alike_iff {a b : Workspace} :
    Alike a b ↔ Alike a.projects b.projects ∧ Alike a.dependencies b.dependencies := by
  -- Workspaces are compared field by field.
  change (a.projects == b.projects && a.dependencies == b.dependencies) = true ↔ _
  simp only [Bool.and_eq_true, Alike]

/-- Artefacts that are there already are alike when their places are. -/
theorem Prebuilt.alike_iff {a b : Prebuilt} :
    Alike a b ↔ Alike a.path b.path ∧ a.shape = b.shape ∧ a.linking = b.linking := by
  -- Artefacts are compared field by field.
  change (a.path == b.path && (a.shape == b.shape && a.linking == b.linking)) = true ↔ _
  simp only [Bool.and_eq_true, beq_iff_eq, Alike]

/-- Replacements are alike when their targets and their artefacts are. -/
theorem Replacement.alike_iff {a b : Replacement} :
    Alike a b ↔ Alike a.target b.target ∧ Alike a.artifact b.artifact := by
  -- Replacements are compared field by field.
  change (a.target == b.target && a.artifact == b.artifact) = true ↔ _
  simp only [Bool.and_eq_true, Alike]

/-- Ledgers are alike when they note replacements and requests that are. -/
theorem Ledger.alike_iff {a b : Ledger} :
    Alike a b ↔ Alike a.replacements b.replacements ∧ Alike a.requested b.requested := by
  -- Ledgers are compared field by field.
  change (a.replacements == b.replacements && a.requested == b.requested) = true ↔ _
  simp only [Bool.and_eq_true, Alike]

end Parts

section Reflexive

-- Whatever can be spelled in different ways is a spelling of itself.

instance : ReflBEq Path := ⟨Path.alike_refl _⟩

instance : ReflBEq TargetId := ⟨TargetId.alike_refl _⟩

instance : ReflBEq ForeignInput where
  rfl {input} := by
    cases input with
    | file path => exact Path.alike_refl path
    | folder path => exact Path.alike_refl path
    | script text => exact beq_self_eq_true text

instance : ReflBEq ForeignArtifact := ⟨ForeignArtifact.alike_iff.mpr ⟨BEq.rfl, rfl⟩⟩

instance : ReflBEq ForeignBuild := ⟨ForeignBuild.alike_iff.mpr ⟨rfl, BEq.rfl, BEq.rfl⟩⟩

instance : ReflBEq BuildPhase := ⟨BuildPhase.alike_iff.mpr ⟨rfl, rfl, rfl, BEq.rfl, BEq.rfl⟩⟩

instance : ReflBEq Target := ⟨Target.alike_iff.mpr ⟨rfl, rfl, rfl, BEq.rfl, rfl, BEq.rfl⟩⟩

instance : ReflBEq TestPlan := ⟨TestPlan.alike_iff.mpr ⟨rfl, BEq.rfl⟩⟩

instance : ReflBEq Project := ⟨Project.alike_iff.mpr ⟨BEq.rfl, rfl, rfl, BEq.rfl, BEq.rfl⟩⟩

end Reflexive

end BuildGraph
