import BuildGraph.Pass.Json
import BuildGraph.Proofs.Json.Records
import BuildGraph.Settings

/-! Everything that is written as JSON is read back as what it was, whether it is set out on one
line or over lines. -/

namespace BuildGraph

open Json

/-- A way of linking is read back. -/
theorem Linking.reads_back : ReadsBack (Reader.choice choices) toJson 0 :=
  -- A choice is read back as soon as no two of its names are the same.
  .choice fun linking => by cases linking <;> rfl

/-- The name of a way of linking stands for it among contents. -/
theorem Linking.choice_content (linking : Linking) :
    Content.choice choices linking.toJson.content = .ok linking := by
  -- One case for each way of linking.
  cases linking <;> rfl

/-- An identity is read back. -/
theorem TargetId.reads_back : ReadsBack reader toJson 1 := by
  -- Field by field, in the order in which they are written.
  refine .record (fun id => (id.path, id.name, ())) (fun _ => rfl) fun id depth room => ?_
  exact .given (ReadsBack.path id.path depth room) (by simp) <|
    .given (ReadsBack.string id.name depth room) (by simp) .done

/-- A node is read back. -/
theorem Dependency.reads_back : ReadsBack reader toJson 1 := by
  intro node depth room
  -- Each kind has a variant of its own.
  cases node with
  | target name path =>
    exact Reader.tagged_of_holds rfl (by simp)
      (.given rfl (by simp) <| .given rfl (by simp) .done) rfl room
  | foreignOutput name path linking =>
    exact Reader.tagged_of_holds rfl (by simp)
      (.given rfl (by simp) <| .given rfl (by simp) <|
        .given linking.choice_content (by simp) .done) rfl room
  | framework path linking =>
    exact Reader.tagged_of_holds rfl (by simp)
      (.given rfl (by simp) <| .given linking.choice_content (by simp) .done) rfl room
  | library path linking =>
    exact Reader.tagged_of_holds rfl (by simp)
      (.given rfl (by simp) <| .given linking.choice_content (by simp) .done) rfl room
  | package product =>
    exact Reader.tagged_of_holds rfl (by simp) (.given rfl (by simp) .done) rfl room
  | sdk name =>
    exact Reader.tagged_of_holds rfl (by simp) (.given rfl (by simp) .done) rfl room

/-- A product is read back. -/
theorem Product.reads_back :
    ReadsBack (Reader.choice choices) (fun product => .string product.text) 0 :=
  -- A choice of names, none of which occurs twice.
  .choice fun product => by cases product <;> rfl

/-- The time of a phase is read back. -/
theorem PhaseOrder.reads_back :
    ReadsBack (Reader.choice choices) (fun order => .string order.text) 0 :=
  -- A choice of names, none of which occurs twice.
  .choice fun order => by cases order <;> rfl

/-- A phase is read back. -/
theorem BuildPhase.reads_back : ReadsBack reader toJson 2 := by
  -- The lists of paths are the deepest fields and take the second level.
  refine .record (fun p => (p.name, p.order, p.script, p.inputPaths, p.outputPaths, ()))
    (fun _ => rfl) fun p depth room => ?_
  exact .given (ReadsBack.string p.name depth (by omega)) (by simp) <|
    .given (PhaseOrder.reads_back p.order depth (by omega)) (by simp) <|
    .given (ReadsBack.string p.script depth (by omega)) (by simp) <|
    .given (ReadsBack.path.list p.inputPaths depth room) (by simp) <|
    .given (ReadsBack.path.list p.outputPaths depth room) (by simp) .done

/-- An input of a foreign build is read back. -/
theorem ForeignInput.reads_back : ReadsBack reader toJson 1 := by
  intro input depth room
  -- Each kind has a variant of its own.
  cases input with
  | file path => exact Reader.tagged_of_holds rfl (by simp) (.given rfl (by simp) .done) rfl room
  | folder path => exact Reader.tagged_of_holds rfl (by simp) (.given rfl (by simp) .done) rfl room
  | script text => exact Reader.tagged_of_holds rfl (by simp) (.given rfl (by simp) .done) rfl room

/-- What a foreign build produces is read back. -/
theorem ForeignArtifact.reads_back : ReadsBack reader toJson 1 := by
  -- Neither field goes deeper than a text.
  refine .record (fun a => (a.path, a.linking, ())) (fun _ => rfl) fun a depth room => ?_
  exact .given (ReadsBack.path a.path depth room) (by simp) <|
    .given (Linking.reads_back a.linking depth room) (by simp) .done

/-- A foreign build is read back. -/
theorem ForeignBuild.reads_back : ReadsBack reader toJson 3 := by
  -- The inputs are the deepest field: a list of objects.
  refine .record (fun b => (b.script, b.inputs, b.output, ())) (fun _ => rfl) fun b depth room => ?_
  exact .given (ReadsBack.string b.script depth (by omega)) (by simp) <|
    .given (ForeignInput.reads_back.list b.inputs depth room) (by simp) <|
    .given (ForeignArtifact.reads_back b.output depth (by omega)) (by simp) .done

namespace Target

/-- The tags of a target are read back. -/
theorem tags_read_back : ReadsBack tagsReader tagsJson 2 := by
  -- Tags are wrapped in an object of one field.
  refine .record (fun tags => (tags, ())) (fun _ => rfl) fun tags depth room => ?_
  exact .given (ReadsBack.string.set tags depth room) (by simp) .done

/-- What is read of a foreign build that may be there is one, since none is written like nothing. -/
theorem foreignBuild_read_back {b : ForeignBuild} {depth : Nat} (room : 3 < depth) :
    Reader.option ForeignBuild.reader ⟨depth, b.toJson.node⟩ = .ok (some b) := by
  -- An optional value is taken for none at `null` only, and a build is written as an object.
  have found : Reader.option ForeignBuild.reader ⟨depth, b.toJson.node⟩ =
      (ForeignBuild.reader ⟨depth, b.toJson.node⟩).map some := rfl
  rw [found, ForeignBuild.reads_back b depth room]
  rfl

/-- A target is read back, and so is that it has no foreign build. -/
theorem reads_back : ReadsBack reader toJson 4 := by
  refine .record (fun t => (t.name, t.product, t.pruned, t.phases, t.tags, t.foreignBuild, ()))
    (fun _ => rfl) fun t depth room => ?_
  -- The last field is there only if there is a foreign build.
  have last : Fields.Holds
      (.optional "foreign_build" (Reader.option ForeignBuild.reader) none .done)
      ((t.foreignBuild.map fun build => ("foreign_build", build.toJson)).toList.map
        fun m => (m.1, ⟨depth, m.2.node⟩)) (t.foreignBuild, ()) := by
    cases t.foreignBuild with
    | none => exact .absent rfl (by simp) .done
    | some b => exact .given (foreignBuild_read_back (by omega)) (by simp) .done
  refine .given (ReadsBack.string t.name depth (by omega)) ?_ <|
    .given (Product.reads_back t.product depth (by omega)) ?_ <|
    .given (ReadsBack.bool t.pruned depth (by omega)) ?_ <|
    .given (BuildPhase.reads_back.list t.phases depth (by omega)) ?_ <|
    .given (tags_read_back t.tags depth (by omega)) ?_ last
  all_goals
    cases t.foreignBuild <;> simp

end Target

/-- The origin of a project is read back. -/
theorem Origin.reads_back :
    ReadsBack (Reader.choice choices) (fun origin => .string origin.text) 0 :=
  -- A choice of names, none of which occurs twice.
  .choice fun origin => by cases origin <;> rfl

/-- A test plan is read back. -/
theorem TestPlan.reads_back : ReadsBack reader toJson 3 := by
  -- The targets are the deepest field: a list of objects.
  refine .record (fun p => (p.name, p.targets, ())) (fun _ => rfl) fun p depth room => ?_
  exact .given (ReadsBack.string p.name depth (by omega)) (by simp) <|
    .given (TargetId.reads_back.list p.targets depth room) (by simp) .done

/-- A project is read back. -/
theorem Project.reads_back : ReadsBack reader toJson 6 := by
  -- The targets decide the height; every other field needs less room than they do.
  refine .record (fun p => (p.path, p.name, p.origin, p.targets, p.testPlans, ())) (fun _ => rfl)
    fun p depth room => ?_
  exact .given (ReadsBack.path p.path depth (by omega)) (by simp) <|
    .given (ReadsBack.string p.name depth (by omega)) (by simp) <|
    .given (Origin.reads_back p.origin depth (by omega)) (by simp) <|
    .given (Target.reads_back.declaredMap p.targets depth room) (by simp) <|
    .given (TestPlan.reads_back.list p.testPlans depth (by omega)) (by simp) .done

namespace Dependencies

/-- An entry is read as its node and the set of the nodes that it lists. -/
theorem entry_read {source : Dependency} {nodes : List Dependency} {depth : Nat}
    (room : 3 < depth) : entryReader ⟨depth, (Value.object [("from", source.toJson),
      ("to", .list (nodes.map Dependency.toJson))]).node⟩ =
        .ok (source, (SortedSet.ofList nodes).toList) := by
  -- The entry is opened one level down, where the source is read as it is and the nodes become a
  -- set.
  obtain ⟨inner, entered, left⟩ := Site.enter_of_lt room
  have listed : Reader.set Dependency.reader
      ⟨inner, (Value.list (nodes.map Dependency.toJson)).node⟩ = .ok (.ofList nodes) := by
    rw [Reader.set, Dependency.reads_back.list nodes inner left]
    rfl
  have holds : Fields.Holds (.required "from" Dependency.reader <|
      .optional "to" (Reader.set Dependency.reader) {} .done)
      [("from", ⟨inner, source.toJson.node⟩),
        ("to", ⟨inner, (Value.list (nodes.map Dependency.toJson)).node⟩)]
      (source, .ofList nodes, ()) :=
    .given (Dependency.reads_back source inner (by omega)) (by simp) <|
      .given listed (by simp) .done
  rw [entryReader, Fields.read_of_holds entered holds]
  rfl

/-- A relation is the one that its own entries give. -/
theorem ofEntries_entries (d : Dependencies) :
    ofEntries (d.entries.map fun e => (e.1, e.2.toList)) = d := by
  -- Nodes stand in order, so that each entry is a new one.
  have ordered : (({} : Dependencies).keys ++
      (d.entries.map fun e => (e.1, e.2.toList)).map Prod.fst).Pairwise
        fun a b => compare a b = .lt := by
    simpa [SortedMap.keys, List.pairwise_map] using d.ordered
  have added := SortedMap.entries_foldl_alter (f := fun (nodes : List Dependency)
    (held : Option (SortedSet Dependency)) => (held.getD {}).insertAll nodes) ordered
  have own : ∀ nodes : SortedSet Dependency, SortedSet.insertAll {} nodes.toList = nodes :=
    SortedSet.ofList_toList
  refine SortedMap.ext (added.trans ?_)
  simp [Function.comp_def, own]

/-- A relation is read back, with the entries of nodes that depend on nothing. -/
theorem reads_back : ReadsBack reader toJson 4 := by
  intro d depth room
  have entries : Reader.list entryReader ⟨depth, d.toJson.node⟩ =
      .ok (d.entries.map fun e => (e.1, e.2.toList)) := by
    refine Reader.list_of_each (fun e _ inner left => ?_) room
    -- The nodes of an entry are listed in order.
    exact (entry_read left).trans (by rw [SortedSet.ofList_toList])
  rw [reader, entries]
  exact congrArg Except.ok d.ofEntries_entries

end Dependencies

/-- A workspace is read back. -/
theorem Workspace.reads_back : ReadsBack reader toJson 8 := by
  -- The projects decide the height, one level below the workspace.
  refine .record (fun w => (w.projects, w.dependencies, ())) (fun _ => rfl) fun w depth room => ?_
  exact .given (Project.reads_back.sortedMap (fun _ => rfl) w.projects depth room) (by simp) <|
    .given (Dependencies.reads_back w.dependencies depth (by omega)) (by simp) .done

/-- The shape of an artefact is read back. -/
theorem Shape.reads_back :
    ReadsBack (Reader.choice choices) (fun shape => .string shape.text) 0 :=
  -- A choice of names, none of which occurs twice.
  .choice fun shape => by cases shape <;> rfl

/-- An artefact is read back. -/
theorem Prebuilt.reads_back : ReadsBack reader toJson 1 := by
  -- No field goes deeper than a text.
  refine .record (fun a => (a.path, a.shape, a.linking, ())) (fun _ => rfl) fun a depth room => ?_
  exact .given (ReadsBack.path a.path depth room) (by simp) <|
    .given (Shape.reads_back a.shape depth room) (by simp) <|
    .given (Linking.reads_back a.linking depth room) (by simp) .done

/-- A replacement is read back. -/
theorem Replacement.reads_back : ReadsBack reader toJson 2 := by
  -- Two records side by side, one level down.
  refine .record (fun r => (r.target, r.artifact, ())) (fun _ => rfl) fun r depth room => ?_
  exact .given (TargetId.reads_back r.target depth room) (by simp) <|
    .given (Prebuilt.reads_back r.artifact depth room) (by simp) .done

/-- A ledger is read back. -/
theorem Ledger.reads_back : ReadsBack reader toJson 5 := by
  -- The replacements are the deepest field: a map of lists of records.
  refine .record (fun l => (l.replacements, l.requested, ())) (fun _ => rfl) fun l depth room => ?_
  exact .given (Replacement.reads_back.list.sortedMap (fun _ => rfl) l.replacements depth room)
      (by simp) <|
    .given (TargetId.reads_back.set l.requested depth (by omega)) (by simp) .done

/-- Settings are read back. -/
theorem Settings.reads_back : ReadsBack reader toJson 3 := by
  -- The plan may be there or not: a text is never written as `null`.
  refine .record (fun s => (s.testPlan, s.included, s.excluded, s.artifacts, ())) (fun _ => rfl)
    fun s depth room => ?_
  exact .given (ReadsBack.string.option (fun _ => nofun) s.testPlan depth (by omega)) (by simp) <|
    .given (ReadsBack.string.set s.included depth (by omega)) (by simp) <|
    .given (ReadsBack.string.set s.excluded depth (by omega)) (by simp) <|
    .given (Prebuilt.reads_back.sortedMap (fun _ => rfl) s.artifacts depth room) (by simp) .done

namespace SideEffect

/-- The words of a command are read back. -/
theorem command_read_back : ReadsBack commandReader commandJson 2 := by
  -- The words are the only field.
  refine .record (fun arguments => (arguments, ())) (fun _ => rfl) fun arguments depth room => ?_
  exact .given (ReadsBack.string.list arguments depth room) (by simp) .done

/-- A side effect is read back. -/
theorem reads_back : ReadsBack reader toJson 2 := by
  intro effect depth room
  cases effect with
  | command arguments =>
    -- The words are texts, which have no levels of their own.
    have low : Value.itemsHeight (arguments.map .string) ≤ 0 := by
      refine Value.itemsHeight_le fun item member => ?_
      obtain ⟨word, _, rfl⟩ := List.mem_map.mp member
      exact Nat.le_refl 0
    have words : Content.items Content.text (Value.list (arguments.map .string)).content =
        .ok arguments := by
      rw [Value.content, Value.itemContents_eq, List.map_map]
      exact mapM_map_ok fun _ _ => rfl
    have members : Value.membersHeight [("arguments", .list (arguments.map .string))] ≤ 1 :=
      Nat.max_le.mpr ⟨Nat.succ_le_succ low, Nat.zero_le 1⟩
    exact Reader.tagged_of_holds rfl (by simp) (.given words (by simp) .done) rfl (by omega)

end SideEffect

/-- An outcome is read back. -/
theorem Outcome.reads_back : ReadsBack reader toJson 9 := by
  -- The workspace decides the height of the whole.
  refine .record (fun o => (o.workspace, o.sideEffects, o.ledger, ())) (fun _ => rfl)
    fun o depth room => ?_
  exact .given (Workspace.reads_back o.workspace depth room) (by simp) <|
    .given (SideEffect.reads_back.list o.sideEffects depth (by omega)) (by simp) <|
    .given (Ledger.reads_back o.ledger depth (by omega)) (by simp) .done

namespace Json

variable {α : Type} {read : Reader α} {write : α → Value}

/-- A text is read as the value that it was written for is, in any layout and with blanks behind
it. -/
theorem Reader.ofText_write (read : Reader α) {layout : Layout} (plain : layout.Plain)
    {blanks : List Char} (all : ∀ c ∈ blanks, isBlank c = true) (value : Value) :
    Reader.ofText read (String.ofList (value.write layout 0 ++ blanks)) =
      read ⟨depthLimit, value.node⟩ := by
  -- A text is the document of its value, whatever blanks are in it.
  rw [Reader.ofText, String.toList_ofList, Document.ofText_write plain _ all, Reader.ofDocument]
  cases read ⟨depthLimit, value.node⟩ <;> rfl

/-- What is read back from nodes is read back from texts, in any layout and with blanks behind it,
if it fits into the levels that a text may have. -/
theorem ReadsBack.ofText_write {height : Nat} (reads : ReadsBack read write height)
    (low : height < depthLimit) {layout : Layout} (plain : layout.Plain) {blanks : List Char}
    (all : ∀ c ∈ blanks, isBlank c = true) (a : α) :
    Reader.ofText read (String.ofList ((write a).write layout 0 ++ blanks)) = .ok a :=
  -- First from the text to the node, then from the node to the value.
  (Reader.ofText_write read plain all _).trans (reads a depthLimit low)

/-- What is set out over lines is read back with a line feed at its end. -/
theorem ReadsBack.ofText_line {height : Nat} (reads : ReadsBack read write height)
    (low : height < depthLimit) (a : α) :
    Reader.ofText read ((write a).pretty ++ "\n") = .ok a := by
  -- A line feed is blank, so this is the pretty layout with one blank behind it.
  have line : (write a).pretty ++ "\n" = String.ofList ((write a).write .pretty 0 ++ ['\n']) := by
    rw [String.ofList_append]
    rfl
  rw [line]
  exact reads.ofText_write low Layout.plain_pretty (by simp [isBlank]) a

/-- Every value is read back from what it is written as, on one line or over lines; and what is
written of a text that is read is a normal form, which is read and written as it is. -/
structure RoundTrips (read : Reader α) (write : α → Value) : Prop where
  -- The third field is about texts that were written by anyone.
  compact : ∀ a, Reader.ofText read (write a).compact = .ok a
  pretty : ∀ a, Reader.ofText read (write a).pretty = .ok a
  normal : ∀ text a, Reader.ofText read text = .ok a →
    (Reader.ofText read (write a).compact).map (fun b => (write b).compact) =
        .ok (write a).compact ∧
      (Reader.ofText read (write a).pretty).map (fun b => (write b).pretty) = .ok (write a).pretty

/-- What is read back from nodes is read back from texts, if it fits into the levels that a text may
have. -/
theorem ReadsBack.roundTrips {height : Nat} (reads : ReadsBack read write height)
    (low : height < depthLimit) : RoundTrips read write := by
  -- Both layouts are read as the value, so what is read from one is written as the other.
  have written : ∀ {layout : Layout}, layout.Plain → ∀ a,
      Reader.ofText read (String.ofList ((write a).write layout 0)) = .ok a := by
    intro layout plain a
    simpa using reads.ofText_write low plain (fun _ => List.not_mem_nil.elim) a
  have compact : ∀ a, Reader.ofText read (write a).compact = .ok a :=
    written Layout.plain_compact
  have pretty : ∀ a, Reader.ofText read (write a).pretty = .ok a :=
    written Layout.plain_pretty
  refine ⟨compact, pretty, fun _ a _ => ?_⟩
  rw [compact, pretty]
  exact ⟨rfl, rfl⟩

end Json

/-- Workspaces, outcomes, ledgers and settings are read back from their JSON texts as they were, and
so is all that they are made of. -/
theorem round_trips :
    RoundTrips Workspace.reader Workspace.toJson ∧ RoundTrips Outcome.reader Outcome.toJson ∧
    RoundTrips Ledger.reader Ledger.toJson ∧ RoundTrips Settings.reader Settings.toJson ∧
    RoundTrips Project.reader Project.toJson ∧ RoundTrips TestPlan.reader TestPlan.toJson ∧
    RoundTrips Target.reader Target.toJson ∧ RoundTrips Target.tagsReader Target.tagsJson ∧
    RoundTrips BuildPhase.reader BuildPhase.toJson ∧
    RoundTrips ForeignBuild.reader ForeignBuild.toJson ∧
    RoundTrips ForeignInput.reader ForeignInput.toJson ∧
    RoundTrips ForeignArtifact.reader ForeignArtifact.toJson ∧
    RoundTrips TargetId.reader TargetId.toJson ∧ RoundTrips Dependency.reader Dependency.toJson ∧
    RoundTrips Dependencies.reader Dependencies.toJson ∧
    RoundTrips Prebuilt.reader Prebuilt.toJson ∧ RoundTrips Replacement.reader Replacement.toJson ∧
    RoundTrips SideEffect.reader SideEffect.toJson ∧
    RoundTrips SideEffect.commandReader SideEffect.commandJson ∧
    RoundTrips (Reader.choice Linking.choices) Linking.toJson ∧
    RoundTrips (Reader.choice Product.choices) (fun product => .string product.text) ∧
    RoundTrips (Reader.choice PhaseOrder.choices) (fun order => .string order.text) ∧
    RoundTrips (Reader.choice Origin.choices) (fun origin => .string origin.text) ∧
    RoundTrips (Reader.choice Shape.choices) (fun shape => .string shape.text) := by
  -- None of them has anything like as many levels as a text may have.
  refine ⟨Workspace.reads_back.roundTrips ?_, Outcome.reads_back.roundTrips ?_,
    Ledger.reads_back.roundTrips ?_, Settings.reads_back.roundTrips ?_,
    Project.reads_back.roundTrips ?_, TestPlan.reads_back.roundTrips ?_,
    Target.reads_back.roundTrips ?_, Target.tags_read_back.roundTrips ?_,
    BuildPhase.reads_back.roundTrips ?_, ForeignBuild.reads_back.roundTrips ?_,
    ForeignInput.reads_back.roundTrips ?_, ForeignArtifact.reads_back.roundTrips ?_,
    TargetId.reads_back.roundTrips ?_, Dependency.reads_back.roundTrips ?_,
    Dependencies.reads_back.roundTrips ?_, Prebuilt.reads_back.roundTrips ?_,
    Replacement.reads_back.roundTrips ?_, SideEffect.reads_back.roundTrips ?_,
    SideEffect.command_read_back.roundTrips ?_, Linking.reads_back.roundTrips ?_,
    Product.reads_back.roundTrips ?_, PhaseOrder.reads_back.roundTrips ?_,
    Origin.reads_back.roundTrips ?_, Shape.reads_back.roundTrips ?_⟩
  all_goals decide

end BuildGraph
