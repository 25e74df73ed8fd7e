import BuildGraph.Json.Content
import BuildGraph.Proofs.Json.Readers

/-! Records are read back when their fields are, whether they are read from a text at once or beside
a tag. -/

namespace BuildGraph.Json

variable {σ τ α β : Type}

namespace Fields

/-- Fields are filled by the members of a list one after another. -/
inductive Filled : Fields σ τ → List (String × σ) → Fields σ τ → Prop where
  -- A member that no field takes has no rule here.
  | done (fields : Fields σ τ) : Filled fields [] fields
  | next {fields fields' filled : Fields σ τ} {name : String} {place : σ}
    {rest : List (String × σ)} (put : fields.put name place = some (.ok fields'))
    (later : Filled fields' rest filled) : Filled fields ((name, place) :: rest) filled

/-- The members of a list give the fields their values in order; those that are left out have a
value that stands in for them. -/
inductive Holds : {τ : Type} → Fields σ τ → List (String × σ) → τ → Prop where
  -- A member of the name of an earlier field would be a duplicate, so there must be none.
  | done : Holds .done [] ()
  | given {α β : Type} {field : Field σ α} {rest : Fields σ β} {place : σ} {a : α}
    {members : List (String × σ)} {values : β} (reads : field.read place = .ok a)
    (apart : ∀ m ∈ members, m.1 ≠ field.name) (later : Holds rest members values) :
    Holds (.more field none rest) ((field.name, place) :: members) (a, values)
  | absent {α β : Type} {field : Field σ α} {rest : Fields σ β} {a : α}
    {members : List (String × σ)} {values : β} (stands : field.absent = some a)
    (apart : ∀ m ∈ members, m.1 ≠ field.name) (later : Holds rest members values) :
    Holds (.more field none rest) members (a, values)

/-- What has the name of no field in front is put further on. -/
theorem put_behind {field : Field σ α} {given : Option α} {rest rest' : Fields σ β} {name : String}
    {place : σ} (other : field.name ≠ name) (put : rest.put name place = some (.ok rest')) :
    Fields.put name place (.more field given rest) = some (.ok (.more field given rest')) := by
  -- The field in front is passed over.
  rw [Fields.put.eq_def]
  simp only [if_neg other, put]
  rfl

/-- What has the name of the field in front is read there, if that is not given yet. -/
theorem put_front {field : Field σ α} {rest : Fields σ β} {place : σ} {a : α}
    (reads : field.read place = .ok a) :
    Fields.put field.name place (.more field none rest) =
      some (.ok (.more field (some a) rest)) := by
  -- The field in front takes the first value with its name.
  rw [Fields.put.eq_def]
  simp only [if_true, reads]

/-- Members of other names leave a field as it is. -/
theorem Filled.behind {field : Field σ α} {given : Option α} {rest filled : Fields σ β}
    {members : List (String × σ)} (apart : ∀ m ∈ members, m.1 ≠ field.name)
    (later : Filled rest members filled) :
    Filled (.more field given rest) members (.more field given filled) := by
  -- The induction is on the members, each of which is put further on.
  induction later with
  | done fields => exact .done _
  | next put _ ih =>
    rename_i name place members _
    have other : field.name ≠ name := (apart (name, place) (.head _)).symm
    exact .next (put_behind other put) (ih fun m later => apart m (.tail _ later))

/-- Members that give the fields their values fill them. -/
theorem Holds.filled {fields : Fields σ τ} {members : List (String × σ)} {values : τ}
    (holds : Holds fields members values) :
    ∃ filled, Filled fields members filled ∧ filled.finish = .ok values := by
  -- The induction is on the fields; the first is given by the first member, or by none.
  induction holds with
  | done => exact ⟨.done, .done _, rfl⟩
  | given reads apart _ ih =>
    obtain ⟨filled, later, finished⟩ := ih
    refine ⟨_, .next (put_front reads) (.behind apart later), ?_⟩
    simp [finish, finished, Except.map]
  | absent stands apart _ ih =>
    obtain ⟨filled, later, finished⟩ := ih
    refine ⟨.more _ none filled, .behind apart later, ?_⟩
    simp [finish, stands, finished, Except.map]

/-- The nodes of members fill fields as their places do. -/
theorem fill_of_filled {strict : Bool} {depth : Nat} {fields filled : Fields Site τ}
    {members : List (String × Value)}
    (held : Filled fields (members.map fun m => (m.1, ⟨depth, m.2.node⟩)) filled) :
    fields.fill strict depth (Value.memberNodes members) = .ok filled := by
  -- Every member has a field, so that it makes no difference whether others are refused.
  induction members generalizing fields with
  | nil =>
    cases held
    rfl
  | cons first rest ih =>
    obtain ⟨name, value⟩ := first
    cases held with
    | next put later =>
      rw [Value.memberNodes, fill, Quoted.text_of]
      simp only [put]
      exact ih later

/-- Contents fill fields as their places do. -/
theorem absorb_of_filled {fields filled : Fields Content τ} {contents : List (String × Content)}
    (held : Filled fields contents filled) : fields.absorb contents = .ok filled := by
  -- The induction is on the contents, each of which is put where it belongs.
  induction held with
  | done fields => rfl
  | next put _ ih =>
    rw [absorb, put]
    exact ih

/-- A record is read from the members that give its fields their values. -/
theorem read_of_holds {title : String} {strict : Bool} {fields : Fields Site τ} {values : τ}
    {members : List (String × Value)} {depth inner : Nat}
    (entered : ∀ node, (⟨depth, node⟩ : Site).enter = .ok inner)
    (holds : Holds fields (members.map fun m => (m.1, ⟨inner, m.2.node⟩)) values) :
    fields.read title strict ⟨depth, (Value.object members).node⟩ = .ok values := by
  -- The members fill the fields, and filled fields are finished.
  obtain ⟨filled, held, finished⟩ := holds.filled
  simp only [read, Value.node, entered, bind, Except.bind, fill_of_filled held, finished]

/-- A record is read from the contents that give its fields their values. -/
theorem ofPayload_of_holds {title : String} {fields : Fields Content τ} {values : τ}
    {contents : List (String × Content)} (holds : Holds fields contents values) :
    fields.ofPayload title (.members contents) = .ok values := by
  -- The contents fill the fields, and filled fields are finished.
  obtain ⟨filled, held, finished⟩ := holds.filled
  simp only [ofPayload, absorb_of_filled held, finished]

end Fields

/-- A record is read back if its members give its fields their values. -/
theorem ReadsBack.record {title : String} {strict : Bool} {fields : Fields Site τ}
    {build : τ → Except Error α} {members : α → List (String × Value)} {height : Nat}
    (values : α → τ) (made : ∀ a, build (values a) = .ok a)
    (holds : ∀ a depth, height < depth →
      fields.Holds ((members a).map fun m => (m.1, ⟨depth, m.2.node⟩)) (values a)) :
    ReadsBack (fun s => fields.read title strict s >>= build) (fun a => .object (members a))
      (height + 1) := by
  -- Entering the object leaves as many levels as its members need.
  intro a depth room
  obtain ⟨inner, entered, left⟩ := Site.enter_of_lt room
  simp only [Fields.read_of_holds entered (holds a inner left), bind, Except.bind, made]

namespace Value

mutual

/-- The levels of containers in a value. -/
def height : Value → Nat
  -- Empty containers count, too, since they have to be entered.
  | null | bool _ | string _ => 0
  | list items => itemsHeight items + 1
  | object members => membersHeight members + 1

/-- The levels of containers in the deepest item. -/
def itemsHeight : List Value → Nat
  -- Items stand side by side, so they do not add up.
  | [] => 0
  | first :: rest => max (height first) (itemsHeight rest)

/-- The levels of containers in the deepest member. -/
def membersHeight : List (String × Value) → Nat
  -- Keys have no containers in them.
  | [] => 0
  | (_, value) :: rest => max (height value) (membersHeight rest)

end

mutual

/-- The content of a value. -/
def content : Value → Content
  -- Nothing can fail here, as a value has no faults.
  | null => .null
  | bool b => .bool b
  | string s => .string s
  | list items => .list (itemContents items)
  | object members => .object (memberContents members)

/-- The contents of items. -/
def itemContents : List Value → List Content
  | [] => []
  | first :: rest => content first :: itemContents rest

/-- The contents of members, each under its name. -/
@[simp] def memberContents : List (String × Value) → List (String × Content)
  | [] => []
  | (key, value) :: rest => (key, content value) :: memberContents rest

end

/-- The contents of items are those of the items one by one. -/
theorem itemContents_eq (items : List Value) : itemContents items = items.map content := by
  -- The recursion is the one of a map.
  induction items with
  | nil => rfl
  | cons first rest ih => rw [itemContents, ih, List.map_cons]

/-- Items that have no more levels than some number have no more together. -/
theorem itemsHeight_le {items : List Value} {levels : Nat}
    (low : ∀ item ∈ items, item.height ≤ levels) : itemsHeight items ≤ levels := by
  -- The induction is on the items, of which the highest counts.
  induction items with
  | nil => exact Nat.zero_le levels
  | cons first rest ih =>
    exact Nat.max_le.mpr ⟨low first (.head _), ih fun item later => low item (.tail _ later)⟩

end Value

namespace Content

mutual

/-- The content of a value is read where there are levels enough. -/
theorem ofNode_node (v : Value) {depth : Nat} (room : v.height < depth) :
    ofNode depth v.node = .ok v.content := by
  -- The induction follows the value. Each container takes one level, which its height counts.
  cases v with
  | null => rfl
  | bool b => cases b <;> rfl
  | string s =>
    rw [Value.node, ofNode, Quoted.text_of]
    rfl
  | list items =>
    obtain ⟨inner, entered, left⟩ := Site.enter_of_lt room
    simp only [Value.node, ofNode, entered, bind, Except.bind, ofItems_nodes items left]
    rfl
  | object members =>
    obtain ⟨inner, entered, left⟩ := Site.enter_of_lt room
    simp only [Value.node, ofNode, entered, bind, Except.bind, ofMembers_nodes members left]
    rfl

/-- The contents of items are read where there are levels enough. -/
theorem ofItems_nodes (items : List Value) {depth : Nat}
    (room : Value.itemsHeight items < depth) :
    ofItems depth (Value.itemNodes items) = .ok (Value.itemContents items) := by
  -- The first item is read as its content, and the others by recursion.
  cases items with
  | nil => rfl
  | cons first rest =>
    obtain ⟨here, later⟩ := Nat.max_lt.mp room
    simp only [Value.itemNodes, ofItems, bind, Except.bind, ofNode_node first here,
      ofItems_nodes rest later]
    rfl

/-- The contents of members are read where there are levels enough. -/
theorem ofMembers_nodes (members : List (String × Value)) {depth : Nat}
    (room : Value.membersHeight members < depth) :
    ofMembers depth (Value.memberNodes members) = .ok (Value.memberContents members) := by
  -- The first member is read as its content, and the others by recursion.
  cases members with
  | nil => rfl
  | cons first rest =>
    obtain ⟨key, value⟩ := first
    obtain ⟨here, later⟩ := Nat.max_lt.mp room
    simp only [Value.memberNodes, ofMembers, bind, Except.bind, Quoted.text_of,
      ofNode_node value here, ofMembers_nodes rest later]
    rfl

end

end Content

/-- The members of other names beside a tag are read as their contents. -/
theorem readTagged_members {tags : Choices β} {depth : Nat} {tag : Option β}
    {seen : List (String × Content)} {members : List (String × Value)}
    (apart : ∀ m ∈ members, m.1 ≠ "kind") (room : Value.membersHeight members < depth) :
    readTagged tags depth tag seen (Value.memberNodes members) =
      .ok (tag, seen.reverse ++ Value.memberContents members) := by
  -- The induction is on the members, each of which is put in front of those that were seen.
  induction members generalizing seen with
  | nil =>
    rw [Value.memberNodes, readTagged, Value.memberContents, List.append_nil]
  | cons first rest ih =>
    obtain ⟨name, value⟩ := first
    obtain ⟨here, later⟩ := Nat.max_lt.mp room
    have other : ¬ name = "kind" := apart (name, value) (.head _)
    have rested : readTagged tags depth tag ((name, value.content) :: seen)
        (Value.memberNodes rest) =
          .ok (tag, ((name, value.content) :: seen).reverse ++ Value.memberContents rest) :=
      ih (fun m member => apart m (.tail _ member)) later
    simp only [Value.memberNodes, readTagged, bind, Except.bind, Quoted.text_of, Error.ofFault_ok,
      if_neg other, Content.ofNode_node value here, rested]
    simp [Value.memberContents]

/-- A tagged value is read from its tag and from the members that give the fields of its variant
their values. -/
theorem Reader.tagged_of_holds {title label kind : String}
    {variants : Choices (Payload → Except Error α)} {fields : Fields Content τ}
    {build : τ → Except Error α} {members : List (String × Value)} {values : τ} {a : α}
    {depth : Nat}
    (picked : variants.lookup kind = some fun payload => fields.ofPayload label payload >>= build)
    (apart : ∀ m ∈ members, m.1 ≠ "kind")
    (holds : fields.Holds (Value.memberContents members) values) (made : build values = .ok a)
    (room : Value.membersHeight members + 1 < depth) :
    (Reader.tagged title variants
        ⟨depth, (Value.object (("kind", .string kind) :: members)).node⟩ >>=
      fun (read, payload) => read payload) = .ok a := by
  obtain ⟨inner, entered, left⟩ := Site.enter_of_lt room
  have pick : Choices.pick variants kind =
      .ok fun payload => fields.ofPayload label payload >>= build := by
    rw [Choices.pick, picked]
  -- The tag comes first, and everything behind it belongs to the variant.
  simp only [Reader.tagged, Value.node, Value.memberNodes, entered, bind, Except.bind, readTagged,
    Quoted.text_of, Error.ofFault_ok, if_true, Reader.quoted, pick,
    readTagged_members apart left, closeWith, List.reverse_nil, List.nil_append]
  simp only [pure, Except.pure, Fields.ofPayload_of_holds holds, made]

end BuildGraph.Json
