import BuildGraph.Json.Collection
import BuildGraph.Json.Reader
import BuildGraph.Proofs.Collections
import BuildGraph.Proofs.Json.Tree

/-! What is written of texts, choices, lists, sets and maps is read back as what it was. -/

namespace BuildGraph.Json

variable {α β : Type}

/-- What a value is written as is read back as the value, where more than `height` levels of
containers are left. -/
def ReadsBack (read : Reader α) (write : α → Value) (height : Nat) : Prop :=
  -- The height bounds how deep the value goes, so parts can be put together by adding one.
  ∀ a depth, height < depth → read ⟨depth, (write a).node⟩ = .ok a

/-- Images that are each read as something are read as the whole list of these things. -/
theorem mapM_map {ι : Type} {f : β → Except Error α} {g : ι → β} {h : ι → α} {list : List ι}
    (each : ∀ a ∈ list, f (g a) = .ok (h a)) : (list.map g).mapM f = .ok (list.map h) := by
  -- The induction is on the things, each of which is read in turn.
  induction list with
  | nil => rfl
  | cons first rest ih =>
    rw [List.map_cons, List.mapM_cons, each first (.head _),
      ih fun a later => each a (.tail _ later)]
    rfl

/-- Images that are each read as what they are images of are read as the whole list. -/
theorem mapM_map_ok {f : β → Except Error α} {g : α → β} {list : List α}
    (each : ∀ a ∈ list, f (g a) = .ok a) : (list.map g).mapM f = .ok list := by
  -- It is the case of the identity.
  simpa using mapM_map (h := id) each

/-- A container is entered where two levels are left, and one less is left inside. -/
theorem Site.enter_of_lt {height depth : Nat} (room : height + 1 < depth) :
    ∃ inner, (∀ node, (⟨depth, node⟩ : Site).enter = .ok inner) ∧ height < inner := by
  -- Entering takes one level away and needs another.
  obtain ⟨inner, rfl⟩ : ∃ inner, depth = inner + 2 := ⟨depth - 2, by omega⟩
  exact ⟨inner + 1, fun _ => rfl, by omega⟩

/-- A list each of whose items is read as something is read as the list of these things. -/
theorem Reader.list_of_each {ι : Type} {read : Reader α} {write : ι → Value} {made : ι → α}
    {items : List ι} {height depth : Nat} (each : ∀ a ∈ items, ∀ depth, height < depth →
      read ⟨depth, (write a).node⟩ = .ok (made a)) (room : height + 1 < depth) :
    Reader.list read ⟨depth, (Value.list (items.map write)).node⟩ = .ok (items.map made) := by
  -- The items lie one level further in, where there is still room for each.
  obtain ⟨inner, entered, left⟩ := Site.enter_of_lt room
  have values : ((items.map write).map Value.node).mapM (fun item => read ⟨inner, item⟩) =
      .ok (items.map made) := by
    rw [List.map_map]
    exact mapM_map fun a member => each a member inner left
  simp only [Reader.list, Value.node, Value.itemNodes_eq, entered, bind, Except.bind, values]
  rfl

namespace ReadsBack

variable {read : Reader α} {write : α → Value} {height : Nat}

/-- A text is read back. -/
theorem string : ReadsBack Reader.string .string 0 := by
  -- The node of a text holds its characters, from which the text is made.
  intro s depth _
  simp only [Reader.string, Reader.quoted, Value.node, Quoted.text_of]
  rfl

/-- A path is read back in its spelling. -/
theorem path : ReadsBack Reader.path Path.toJson 0 := by
  -- The node of a path is that of its spelling.
  intro p depth _
  simp only [Reader.path, Reader.quoted, Path.toJson, Value.node, Quoted.text_of]
  rfl

/-- A truth value is read back. -/
theorem bool : ReadsBack Reader.bool .bool 0 := by
  -- There are two words, one for each.
  intro b depth _
  cases b <;> rfl

/-- A choice is read back by its name if names are told apart. -/
theorem choice {options : Choices α} {name : α → String}
    (told : ∀ a, options.lookup (name a) = some a) :
    ReadsBack (Reader.choice options) (fun a => .string (name a)) 0 := by
  -- The name is looked up among the options.
  intro a depth _
  have picked : options.pick (name a) = .ok a := by rw [Choices.pick, told]
  simp only [Reader.choice, Value.node, Quoted.text_of]
  exact picked

/-- A value or nothing is read back if no value is written like nothing. -/
theorem option (reads : ReadsBack read write height)
    (apart : ∀ a, (write a).node ≠ .word .null) :
    ReadsBack (Reader.option read) (fun o => o.elim .null write) height := by
  -- Nothing is written as a word of its own, which no value is.
  intro o depth room
  cases o with
  | none => rfl
  | some a =>
    show Reader.option read ⟨depth, (write a).node⟩ = .ok (some a)
    rw [Reader.option]
    split
    · rename_i null
      exact absurd null (apart a)
    · rw [reads a depth room]
      rfl

/-- A list is read back item by item. -/
theorem list (reads : ReadsBack read write height) :
    ReadsBack (Reader.list read) (fun items => .list (items.map write)) (height + 1) := by
  -- It is the case of items that are read as what they are written from.
  intro items depth room
  have values : Reader.list read ⟨depth, (Value.list (items.map write)).node⟩ =
      .ok (items.map id) :=
    Reader.list_of_each (fun a _ => reads a) room
  rwa [List.map_id] at values

/-- The members of an object are read back one by one. -/
theorem members (reads : ReadsBack read write height) :
    ReadsBack (Reader.members read)
      (fun entries => .object (entries.map fun e => (e.1, write e.2))) (height + 1) := by
  intro entries depth room
  obtain ⟨inner, entered, left⟩ := Site.enter_of_lt room
  simp only [Reader.members, Value.node, Value.memberNodes_eq, List.map_map, entered, bind,
    Except.bind, Function.comp_def]
  -- Each member is read by itself, first its name and then its value.
  rw [mapM_map_ok fun e _ => ?_]
  · rfl
  · simp only [Quoted.text_of, Error.ofFault_ok, reads e.2 inner left]
    rfl

/-- A set is read back in order. -/
theorem set [Ord α] [Std.TransOrd α] (reads : ReadsBack read write height) :
    ReadsBack (Reader.set read) (SortedSet.toJson write) (height + 1) := by
  intro s depth room
  have items := reads.list s.toList depth room
  rw [Reader.set, SortedSet.toJson, items]
  -- The items come in order, so that the set is made of them as it was.
  exact congrArg Except.ok s.ofList_toList

/-- A map in the order of its keys is read back if its keys are. -/
theorem sortedMap {κ : Type} [Ord κ] [Std.TransOrd κ] {key : String → κ} {text : κ → String}
    (keys : ∀ k, key (text k) = k) (reads : ReadsBack read write height) :
    ReadsBack (Reader.sortedMap key read) (SortedMap.toJson text write) (height + 1) := by
  -- The members are read in the order of the keys, and the keys are what they were.
  intro m depth room
  have entries := reads.members (m.entries.map fun e => (text e.1, e.2)) depth room
  have same : (m.entries.map fun e => (text e.1, e.2)).map (fun e => (key e.1, e.2)) =
      m.entries := by
    simp [List.map_map, Function.comp_def, keys]
  simp only [List.map_map, Function.comp_def] at entries
  rw [Reader.sortedMap, SortedMap.toJson, entries]
  exact congrArg Except.ok ((congrArg SortedMap.ofList same).trans m.ofList_entries)

/-- A map in order of declaration is read back. -/
theorem declaredMap (reads : ReadsBack read write height) :
    ReadsBack (Reader.declaredMap read) (DeclaredMap.toJson write) (height + 1) := by
  -- The members are read in the order in which they were declared.
  intro m depth room
  rw [Reader.declaredMap, DeclaredMap.toJson, reads.members m.entries depth room]
  exact congrArg Except.ok m.ofList_entries

end ReadsBack

end BuildGraph.Json
