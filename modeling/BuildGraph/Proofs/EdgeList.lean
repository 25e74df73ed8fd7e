import BuildGraph.Proofs.LinkEdges
import BuildGraph.Proofs.RoundTrip
import BuildGraph.Proofs.Spelling.Records

/-! A list of edges is read as a relation: the nodes that have entries, and for each of them the
union of what its entries list. How the entries are arranged and their paths spelled has no say. -/

namespace BuildGraph

open Json

/-- One entry of a list of edges: a node, and the nodes that it depends on, if these are given. -/
structure EdgeEntry where
  -- Giving an empty list and leaving it out are read alike, and are told apart here.
  source : Dependency
  nodes? : Option (List Dependency)
deriving DecidableEq, Inhabited, Repr

namespace EdgeEntry

/-- The nodes that an entry gives; it gives none where they are left out. -/
def nodes (e : EdgeEntry) : List Dependency :=
  -- Repetitions are kept.
  e.nodes?.getD []

/-- An entry as its fields, of which the second may be left out. -/
def toJson (e : EdgeEntry) : Value :=
  -- The field is left out just where the nodes are.
  .object (("from", e.source.toJson) ::
    (e.nodes?.map fun nodes => ("to", .list (nodes.map Dependency.toJson))).toList)

/-- The edges that some entries give, one by one. -/
def edges (entries : List EdgeEntry) : List (Dependency × Dependency) :=
  -- An entry without nodes gives none.
  entries.flatMap fun e => e.nodes.map (e.source, ·)

/-- The nodes of the entries that give no edges. -/
def bare (entries : List EdgeEntry) : List Dependency :=
  -- These nodes would be lost among the edges.
  (entries.filter fun e => e.nodes.isEmpty).map source

/-- A node has an entry, in some spelling. -/
def Occurs (entries : List EdgeEntry) (k : Dependency) : Prop :=
  -- Whether the entry gives any nodes does not matter.
  ∃ e ∈ entries, Alike k e.source

instance (entries : List EdgeEntry) (k : Dependency) : Decidable (Occurs entries k) :=
  inferInstanceAs (Decidable (∃ e ∈ entries, _))

/-- An entry of the node `k` gives the node `n`, in some spellings. -/
def Relates (entries : List EdgeEntry) (k n : Dependency) : Prop :=
  -- Several entries of one node add up.
  ∃ e ∈ entries, Alike k e.source ∧ ∃ m ∈ e.nodes, Alike n m

instance (entries : List EdgeEntry) (k n : Dependency) : Decidable (Relates entries k n) :=
  inferInstanceAs (Decidable (∃ e ∈ entries, _))

/-- Dependencies have the nodes of some entries as their keys, and hold for each node what its
entries give. -/
structure Describe (entries : List EdgeEntry) (d : Dependencies) : Prop where
  -- Nothing is said about spellings, which equality of dependencies does not see.
  keys : ∀ k, d.contains k = true ↔ Occurs entries k
  unions : ∀ k n, (d.held k).contains n = true ↔ Relates entries k n

/-- Entries whose paths are spelled in different ways. -/
structure Respells (e e' : EdgeEntry) : Prop where
  -- The nodes correspond one by one, in their order.
  source : Alike e.source e'.source
  nodes : List.Forall₂ Alike e.nodes e'.nodes

/-- Several entries of the node of an entry, at least one, that give together what it gives. -/
structure Parts (e : EdgeEntry) (parts : List EdgeEntry) : Prop where
  -- The parts may overlap, and nodes may repeat.
  nonempty : parts ≠ []
  source : ∀ part ∈ parts, part.source = e.source
  nodes : ∀ n, n ∈ e.nodes ↔ ∃ part ∈ parts, n ∈ part.nodes

/-- Entries are brought into another order, taken apart, repeated and spelled in other ways. -/
inductive Rearranged : List EdgeEntry → List EdgeEntry → Prop
  -- Each way is a rule, and any number of them can follow each other.
  | permuted {entries entries' : List EdgeEntry} (same : entries.Perm entries') :
    Rearranged entries entries'
  | parted {front back parts : List EdgeEntry} {e : EdgeEntry} (divides : e.Parts parts) :
    Rearranged (front ++ e :: back) (front ++ parts ++ back)
  | repeated {entries : List EdgeEntry} {e : EdgeEntry} (member : e ∈ entries) :
    Rearranged entries (e :: entries)
  | respelled {entries entries' : List EdgeEntry} (same : List.Forall₂ Respells entries entries') :
    Rearranged entries entries'
  | trans {entries between entries' : List EdgeEntry} (first : Rearranged entries between)
    (second : Rearranged between entries') : Rearranged entries entries'

/-- Whatever can be said of some entry can still be said of one after they are rearranged, if it
does not depend on spelling, and is said of an entry exactly when it is said of a part of it. -/
theorem Rearranged.exists_iff {P : EdgeEntry → Prop}
    (spelling : ∀ e e', Respells e e' → (P e ↔ P e'))
    (parting : ∀ e parts, e.Parts parts → (P e ↔ ∃ part ∈ parts, P part))
    {entries entries' : List EdgeEntry} (rearranged : Rearranged entries entries') :
    (∃ e ∈ entries, P e) ↔ ∃ e ∈ entries', P e := by
  -- On the rearrangement; respelled entries are then compared pair by pair.
  induction rearranged with
  | permuted same => exact exists_congr fun e => and_congr_left fun _ => same.mem_iff
  | parted divides =>
    simp only [List.mem_append, List.mem_cons, or_and_right, exists_or, exists_eq_left,
      parting _ _ divides, or_assoc]
  | repeated member =>
    simp only [List.mem_cons, or_and_right, exists_or, exists_eq_left]
    exact ⟨.inr, fun found => found.elim (fun here => ⟨_, member, here⟩) id⟩
  | respelled same =>
    induction same with
    | nil => rfl
    | cons first _ ih =>
      simp only [List.mem_cons, or_and_right, exists_or, exists_eq_left, ih, spelling _ _ first]
  | trans _ _ first second => exact first.trans second

/-- The same nodes have entries after these are rearranged. -/
theorem Rearranged.occurs_iff {entries entries' : List EdgeEntry}
    (rearranged : Rearranged entries entries') (k : Dependency) :
    Occurs entries k ↔ Occurs entries' k := by
  -- A rearrangement either respells entries or takes one apart; in both cases the parts have the
  -- same source as the whole.
  refine rearranged.exists_iff (fun _ _ same => alike_congr same.source k) fun e parts divides => ?_
  constructor
  · intro same
    obtain ⟨part, member⟩ := List.exists_mem_of_ne_nil _ divides.nonempty
    exact ⟨part, member, (divides.source part member).symm ▸ same⟩
  · rintro ⟨part, member, same⟩
    exact divides.source part member ▸ same

/-- Entries give the same relation after they are rearranged. -/
theorem Rearranged.relates_iff {entries entries' : List EdgeEntry}
    (rearranged : Rearranged entries entries') (k n : Dependency) :
    Relates entries k n ↔ Relates entries' k n := by
  -- The nodes of an entry that is taken apart are those of its parts together, and the sources are
  -- the same.
  refine rearranged.exists_iff (fun e e' same => ?_) fun e parts divides => ?_
  · refine and_congr (alike_congr same.source k) ?_
    have given := any_eq_of_forall₂ (p := (n == ·)) (q := (n == ·))
      (fun m m' pair => Bool.eq_iff_iff.mpr (alike_congr pair n)) same.nodes
    rwa [Bool.eq_iff_iff, List.any_eq_true, List.any_eq_true] at given
  · constructor
    · rintro ⟨same, m, given, also⟩
      obtain ⟨part, member, here⟩ := (divides.nodes m).mp given
      exact ⟨part, member, (divides.source part member).symm ▸ same, m, here, also⟩
    · rintro ⟨part, member, same, m, here, also⟩
      exact ⟨divides.source part member ▸ same, m, (divides.nodes m).mpr ⟨part, member, here⟩, also⟩

end EdgeEntry

namespace Dependencies

variable {d d' : Dependencies}

/-- Adding nodes to what a node depends on makes it a key. -/
theorem contains_add (d : Dependencies) (source : Dependency) (nodes : List Dependency)
    (k : Dependency) : (d.add source nodes).contains k = true ↔
      d.contains k = true ∨ Alike k source := by
  -- The addition updates one entry, whose key is there afterwards.
  rw [SortedMap.contains_eq_isSome_get?, add, SortedMap.get?_alter,
    SortedMap.contains_eq_isSome_get?, alike_iff_compare]
  split <;> simp [*]

/-- Nodes are added to what a node depends on, in whatever spelling that is looked up. -/
theorem contains_held_add (d : Dependencies) (source : Dependency) (nodes : List Dependency)
    (k n : Dependency) : ((d.add source nodes).held k).contains n = true ↔
      (d.held k).contains n = true ∨ Alike k source ∧ ∃ m ∈ nodes, Alike n m := by
  -- At a key that compares equal, the set there is extended; all others are left alone.
  simp only [held, add, SortedMap.get?_alter, alike_iff_compare]
  split
  · rename_i same
    simp only [Option.getD_some, SortedSet.contains_insertAll, SortedMap.get?_congr same, same,
      true_and]
  · simp [*]

/-- Adding several rows makes their nodes keys. -/
theorem contains_foldl_add (rows : List (Dependency × List Dependency)) (d : Dependencies)
    (k : Dependency) : (rows.foldl (fun d row => d.add row.1 row.2) d).contains k = true ↔
      d.contains k = true ∨ ∃ row ∈ rows, Alike k row.1 := by
  -- By induction on the rows, one addition at a time.
  induction rows generalizing d with
  | nil => simp
  | cons first rest ih =>
    simp only [List.foldl_cons, ih, contains_add, List.mem_cons, or_and_right, exists_or,
      exists_eq_left, or_assoc]

/-- Adding several rows adds what they list to what their nodes depend on. -/
theorem contains_held_foldl_add (rows : List (Dependency × List Dependency)) (d : Dependencies)
    (k n : Dependency) :
    ((rows.foldl (fun d row => d.add row.1 row.2) d).held k).contains n = true ↔
      (d.held k).contains n = true ∨ ∃ row ∈ rows, Alike k row.1 ∧ ∃ m ∈ row.2, Alike n m := by
  -- By induction on the rows, one addition at a time.
  induction rows generalizing d with
  | nil => simp
  | cons first rest ih =>
    simp only [List.foldl_cons, ih, contains_held_add, List.mem_cons, or_and_right, exists_or,
      exists_eq_left, or_assoc]

/-- The keys of a relation that is made of rows are the nodes of these. -/
theorem contains_ofEntries {rows : List (Dependency × List Dependency)} {k : Dependency} :
    (ofEntries rows).contains k = true ↔ ∃ row ∈ rows, Alike k row.1 :=
  -- The rows are added to a relation without any keys.
  (contains_foldl_add rows {} k).trans (or_iff_right Bool.false_ne_true)

/-- In a relation that is made of rows, nodes depend on what their rows list. -/
theorem contains_held_ofEntries {rows : List (Dependency × List Dependency)} {k n : Dependency} :
    ((ofEntries rows).held k).contains n = true ↔
      ∃ row ∈ rows, Alike k row.1 ∧ ∃ m ∈ row.2, Alike n m :=
  -- The rows are added to a relation that holds nothing.
  (contains_held_foldl_add rows {} k n).trans (or_iff_right Bool.false_ne_true)

/-- Dependencies are alike when they have the same keys and hold the same for each of them. -/
theorem alike_of_contains (keys : ∀ k, d.contains k = d'.contains k)
    (nodes : ∀ k n, (d.held k).contains n = (d'.held k).contains n) : Alike d d' := by
  refine SortedMap.alike_of_rel_get? fun k => ?_
  have both := keys k
  rw [SortedMap.contains_eq_isSome_get?, SortedMap.contains_eq_isSome_get?] at both
  have same : Alike (d.held k) (d'.held k) := SortedSet.alike_of_contains (nodes k)
  rw [held, held] at same
  -- What is held for a key is there on both sides, or on neither.
  cases found : d.get? k with
  | none =>
    cases found' : d'.get? k with
    | none => exact .none
    | some nodes' => simp [found, found'] at both
  | some nodes =>
    cases found' : d'.get? k with
    | none => simp [found, found'] at both
    | some nodes' => exact .some (by simpa [found, found'] using same)

end Dependencies

namespace EdgeEntry

/-- Dependencies that rearranged entries describe are alike. -/
theorem Describe.alike {entries entries' : List EdgeEntry} {d d' : Dependencies}
    (first : Describe entries d) (second : Describe entries' d')
    (rearranged : Rearranged entries entries') : Alike d d' := by
  -- Dependencies are told apart by their keys and unions only, and the entries fix both.
  refine Dependencies.alike_of_contains (fun k => ?_) fun k n => ?_
  · rw [Bool.eq_iff_iff, first.keys, second.keys, rearranged.occurs_iff]
  · rw [Bool.eq_iff_iff, first.unions, second.unions, rearranged.relates_iff]

/-- What an entry is read as: its node, and the nodes that it gives, in order. -/
def row (e : EdgeEntry) : Dependency × List Dependency :=
  -- The set drops repetitions and brings the nodes in order.
  (e.source, (SortedSet.ofList e.nodes).toList)

/-- An entry is read as its row. -/
theorem read_row {e : EdgeEntry} {depth : Nat} (room : 3 < depth) :
    Dependencies.entryReader ⟨depth, e.toJson.node⟩ = .ok e.row := by
  obtain ⟨source, _ | nodes⟩ := e
  · -- The second field is left out, and the empty set stands in for it.
    obtain ⟨inner, entered, left⟩ := Site.enter_of_lt room
    have holds : Fields.Holds (.required "from" Dependency.reader <|
        .optional "to" (Reader.set Dependency.reader) {} .done)
        [("from", ⟨inner, source.toJson.node⟩)] (source, {}, ()) :=
      .given (Dependency.reads_back source inner (by omega)) (by simp) <|
        .absent rfl (by simp) .done
    have written : toJson ⟨source, none⟩ = .object [("from", source.toJson)] := rfl
    rw [written, Dependencies.entryReader, Fields.read_of_holds entered holds]
    rfl
  · exact Dependencies.entry_read room

/-- An entry is read with the nodes that it gives, and no others. -/
theorem exists_mem_row (e : EdgeEntry) (n : Dependency) :
    (∃ m ∈ e.row.2, Alike n m) ↔ ∃ m ∈ e.nodes, Alike n m := by
  -- The row holds the set of the nodes, which contains one in every spelling.
  have collected : (SortedSet.ofList e.nodes).contains n = true ↔
      ∃ m ∈ e.nodes, compare n m = .eq :=
    SortedSet.contains_insertAll.trans (or_iff_right Bool.false_ne_true)
  simp only [alike_iff_compare]
  exact SortedSet.contains_iff.symm.trans collected

/-- Entries describe the dependencies that they are read as. -/
theorem describe_rows (entries : List EdgeEntry) :
    Describe entries (.ofEntries (entries.map row)) := by
  -- The relation made of rows has exactly their sources as keys and their unions as sets.
  constructor
  · intro k
    rw [Dependencies.contains_ofEntries]
    simp only [List.mem_map, exists_exists_and_eq_and]
    rfl
  · intro k n
    rw [Dependencies.contains_held_ofEntries]
    simp only [List.mem_map, exists_exists_and_eq_and, exists_mem_row]
    rfl

end EdgeEntry

namespace Workspace

/-- The workspace in which all of these edges have been added one after another, and then the nodes
that are to be there without any. -/
def ofEdges (projects : SortedMap Path Project) (edges : List (Dependency × Dependency))
    (bare : List Dependency) : Workspace :=
  -- The bare nodes come last, where they cannot get in the way of edges.
  let linked : Workspace := edges.foldl (fun w edge => w.addDependency edge.1 edge.2) { projects }
  { linked with dependencies := linked.dependencies.addAll bare }

/-- A workspace in JSON with a list of edges. -/
def listing (projects : SortedMap Path Project) (entries : List EdgeEntry) : Value :=
  -- The entries stand in their order and are not collected beforehand.
  .object [("projects", projects.toJson Path.text Project.toJson),
    ("dependencies", .list (entries.map EdgeEntry.toJson))]

/-- A value is read as a workspace in every layout that puts only blanks between its parts. -/
def ReadFrom (w : Workspace) (value : Value) : Prop :=
  -- The layout may vary, and no other value comes of it.
  ∀ layout : Layout, layout.Plain →
    Reader.ofText reader (String.ofList (value.write layout 0)) = .ok w

/-- A list of edges is read as the rows of its entries. -/
theorem readFrom_listing (projects : SortedMap Path Project) (entries : List EdgeEntry) :
    ReadFrom ⟨projects, .ofEntries (entries.map EdgeEntry.row)⟩ (listing projects entries) := by
  -- The text has two fields, of which the second is a list of entries, each read as its row.
  intro layout plain
  obtain ⟨inner, entered, left⟩ : ∃ inner,
      (∀ node, (⟨depthLimit, node⟩ : Site).enter = .ok inner) ∧ 7 < inner :=
    Site.enter_of_lt (by decide)
  have listed : Dependencies.reader ⟨inner, (Value.list (entries.map EdgeEntry.toJson)).node⟩ =
      .ok (.ofEntries (entries.map EdgeEntry.row)) := by
    rw [Dependencies.reader, Reader.list_of_each
      (fun e _ _ room => EdgeEntry.read_row room) (by omega)]
    rfl
  have holds : Fields.Holds (.optional "projects" (Reader.sortedMap Path.mk Project.reader) {} <|
      .optional "dependencies" Dependencies.reader {} .done)
      ([("projects", projects.toJson Path.text Project.toJson),
        ("dependencies", .list (entries.map EdgeEntry.toJson))].map
          fun m => (m.1, ⟨inner, m.2.node⟩))
      (projects, .ofEntries (entries.map EdgeEntry.row), ()) :=
    .given (Project.reads_back.sortedMap (fun _ => rfl) projects inner left) (by simp) <|
      .given listed (by simp) .done
  have read := Reader.ofText_write reader plain (fun _ => List.not_mem_nil.elim)
    (listing projects entries)
  rw [List.append_nil] at read
  rw [read, reader, listing, Fields.read_of_holds entered holds]
  rfl

/-- Adding edges changes no projects, and adds a row for each of them. -/
theorem foldl_addDependency (edges : List (Dependency × Dependency)) (w : Workspace) :
    edges.foldl (fun w edge => w.addDependency edge.1 edge.2) w = ⟨w.projects,
      (edges.map fun edge => (edge.1, [edge.2])).foldl (fun d row => d.add row.1 row.2)
        w.dependencies⟩ := by
  -- By induction on the edges; each of them is a row of one node.
  induction edges generalizing w with
  | nil => rfl
  | cons first rest ih => exact ih _

/-- Edges that are added one by one are rows of one node each. -/
theorem ofEdges_eq (projects : SortedMap Path Project) (edges : List (Dependency × Dependency))
    (bare : List Dependency) : ofEdges projects edges bare = ⟨projects,
      (Dependencies.ofEntries (edges.map fun edge => (edge.1, [edge.2]))).addAll bare⟩ := by
  -- Adding a node without edges is adding a row that lists nothing.
  rw [ofEdges, foldl_addDependency]
  rfl

end Workspace

namespace EdgeEntry

/-- The nodes of some entries are those of their edges, and those that are bare. -/
theorem occurs_iff {entries : List EdgeEntry} {k : Dependency} : Occurs entries k ↔
    (∃ edge ∈ edges entries, Alike k edge.1) ∨ ∃ source ∈ bare entries, Alike k source := by
  -- An entry either lists nothing and is bare, or its first node gives an edge from its source.
  simp only [Occurs, edges, bare, List.mem_flatMap, List.mem_map, List.mem_filter]
  constructor
  · rintro ⟨e, member, same⟩
    cases given : e.nodes with
    | nil => exact .inr ⟨e.source, ⟨e, ⟨member, by simp [given]⟩, rfl⟩, same⟩
    | cons m rest => exact .inl ⟨(e.source, m), ⟨e, member, m, by simp [given], rfl⟩, same⟩
  · rintro (⟨_, ⟨e, member, m, _, rfl⟩, same⟩ | ⟨_, ⟨e, ⟨member, _⟩, rfl⟩, same⟩)
    · exact ⟨e, member, same⟩
    · exact ⟨e, member, same⟩

/-- The relation that some entries give is that of their edges. -/
theorem relates_iff {entries : List EdgeEntry} {k n : Dependency} : Relates entries k n ↔
    ∃ edge ∈ edges entries, Alike k edge.1 ∧ Alike n edge.2 := by
  -- Each node of an entry makes one edge, and every edge comes from such a node.
  simp only [Relates, edges, List.mem_flatMap, List.mem_map]
  constructor
  · rintro ⟨e, member, same, m, given, also⟩
    exact ⟨(e.source, m), ⟨e, member, m, given, rfl⟩, same, also⟩
  · rintro ⟨_, ⟨e, member, m, given, rfl⟩, same, also⟩
    exact ⟨e, member, same, m, given, also⟩

/-- Entries describe the dependencies that are made of their edges, in whatever order these are
added, and of the nodes that are bare. -/
theorem describe_ofEdges {projects : SortedMap Path Project} {entries : List EdgeEntry}
    {added : List (Dependency × Dependency)} (same : added.Perm (edges entries)) :
    Describe entries (Workspace.ofEdges projects added (bare entries)).dependencies := by
  rw [Workspace.ofEdges_eq]
  constructor
  · intro k
    -- The keys are the nodes that were added with edges, and those that were added without.
    rw [occurs_iff, ← SortedMap.contains_keySet, Dependencies.keySet_addAll,
      SortedSet.contains_insertAll, SortedMap.contains_keySet, Dependencies.contains_ofEntries]
    simp only [List.mem_map, exists_exists_and_eq_and, same.mem_iff, alike_iff_compare]
  · intro k n
    rw [Dependencies.held_addAll, Dependencies.contains_held_ofEntries, relates_iff]
    simp only [List.mem_map, exists_exists_and_eq_and, List.mem_singleton, exists_eq_left,
      same.mem_iff]

end EdgeEntry

/-- A list of edges is a relation. Whatever entries it has, the workspace that is read has exactly
the nodes of its entries as keys, those that give no nodes among them, and holds for each of them
the union of what its entries give. If the entries are brought into another order, taken apart,
repeated or spelled in other ways, and the projects are spelled in other ways, an equal workspace is
read. And an equal one is made by adding the edges one by one, in any order, and then the nodes
without any. -/
theorem Workspace.reads_edges_as_relation (projects : SortedMap Path Project)
    (entries : List EdgeEntry) : ∃ w : Workspace, w.ReadFrom (listing projects entries) ∧
      w.projects = projects ∧ EdgeEntry.Describe entries w.dependencies ∧
      (∀ projects' entries', (projects == projects') = true →
        EdgeEntry.Rearranged entries entries' →
          ∃ w', ReadFrom w' (listing projects' entries') ∧ (w == w') = true) ∧
      ∀ added, added.Perm (EdgeEntry.edges entries) →
        (w == ofEdges projects added (EdgeEntry.bare entries)) = true := by
  -- What is read is made of the rows of the entries. All three parts compare it with something else
  -- that the same entries describe, or rearranged ones do.
  have described := EdgeEntry.describe_rows entries
  refine ⟨_, readFrom_listing projects entries, rfl, described,
    fun projects' entries' same rearranged => ?_, fun added same => ?_⟩
  · exact ⟨_, readFrom_listing projects' entries',
      alike_iff.mpr ⟨same, described.alike (EdgeEntry.describe_rows entries') rearranged⟩⟩
  · have made : EdgeEntry.Describe entries
        (ofEdges projects added (EdgeEntry.bare entries)).dependencies :=
      EdgeEntry.describe_ofEdges same
    refine alike_iff.mpr ⟨?_, described.alike made (.permuted (.refl _))⟩
    rw [ofEdges_eq]
    exact BEq.rfl

namespace Sample

/-- The application of a project. -/
def appNode : Dependency :=
  .target "App" ⟨"/A"⟩

/-- The library of that project. -/
def coreNode : Dependency :=
  .target "Core" ⟨"/A"⟩

/-- Two entries of the application, of which one spells its path in another way, and between them
one of the library that gives no nodes. -/
def edgeEntries : List EdgeEntry :=
  -- Two spellings of a key, a key without nodes, and nodes that are spread over entries.
  [⟨appNode, some [coreNode]⟩, ⟨coreNode, none⟩, ⟨.target "App" ⟨"/A/."⟩, some [.sdk "XCTest"]⟩]

end Sample

/-- The library is a key although it has no edges, the application has those of both of its entries,
and an equal workspace is read if the entries come in reverse and one of them twice. -/
theorem Workspace.reads_edges_as_relation_of_sample :
    ∃ w w' : Workspace, w.ReadFrom (listing {} Sample.edgeEntries) ∧
      w.dependencies.contains Sample.coreNode = true ∧
      (w.dependencies.held Sample.appNode).contains Sample.coreNode = true ∧
      (w.dependencies.held Sample.appNode).contains (.sdk "XCTest") = true ∧
      (w.dependencies.held Sample.coreNode).contains (.sdk "XCTest") = false ∧
      w'.ReadFrom (listing {} (⟨Sample.coreNode, none⟩ :: Sample.edgeEntries.reverse)) ∧
      (w == w') = true ∧
      (w == ofEdges {} (EdgeEntry.edges Sample.edgeEntries).reverse [Sample.coreNode]) = true := by
  obtain ⟨w, read, _, described, again, added⟩ := reads_edges_as_relation {} Sample.edgeEntries
  have twice : EdgeEntry.Rearranged Sample.edgeEntries
      (⟨Sample.coreNode, none⟩ :: Sample.edgeEntries.reverse) :=
    .trans (.permuted (List.reverse_perm _).symm) (.repeated (by decide))
  obtain ⟨w', read', equal⟩ := again {} _ rfl twice
  refine ⟨w, w', read, ?_, ?_, ?_, ?_, read', equal, added _ (List.reverse_perm _)⟩
  · exact (described.keys _).mpr (by decide)
  · exact (described.unions _ _).mpr (by decide)
  · exact (described.unions _ _).mpr (by decide)
  · -- The only entry of the library gives no nodes.
    exact Bool.eq_false_iff.mpr fun given => absurd ((described.unions _ _).mp given) (by decide)

end BuildGraph
