import BuildGraph.Json.Fields
import BuildGraph.Json.Reader

/-! Values that are read in full before their type is known. -/

namespace BuildGraph.Json

/-- A value of any type, without a fault. -/
inductive Content where
  -- Unlike a node it has no fault in it, so it can be read more than once.
  | null
  | bool (b : Bool)
  | number (n : Number)
  | string (s : String)
  | list (items : List Content)
  | object (members : List (String × Content))
deriving Inhabited, Repr

namespace Content

mutual

/-- The content of a node, read strictly to its end. -/
def ofNode (depth : Nat) : Node → Except Error Content
  -- Everything is read here, including members that nobody asks for later.
  | .absent fault | .stub fault => refuseFault fault
  | .word .null => .ok .null
  | .word .true => .ok (.bool true)
  | .word .false => .ok (.bool false)
  | .numeral n => (Error.ofFault n.value).map .number
  | .quoted q => (Error.ofFault q.text).map .string
  | .list items fault => do
    let depth ← Site.enter ⟨depth, .list [] none⟩
    let contents ← ofItems depth items
    closeWith fault (.list contents)
  | .object members fault => do
    let depth ← Site.enter ⟨depth, .list [] none⟩
    let contents ← ofMembers depth members
    closeWith fault (.object contents)
  | .keyless => refuseFault .malformed

/-- The contents of the items of a list. -/
def ofItems (depth : Nat) : List Node → Except Error (List Content)
  -- The items share the levels that are left.
  | [] => .ok []
  | item :: rest => do
    let content ← ofNode depth item
    let contents ← ofItems depth rest
    return content :: contents

/-- The contents of the members of an object. -/
def ofMembers (depth : Nat) : List (Quoted × Node) → Except Error (List (String × Content))
  -- A key comes before its value, and so do their faults.
  | [] => .ok []
  | (key, value) :: rest => do
    let name ← Error.ofFault key.text
    let content ← ofNode depth value
    let contents ← ofMembers depth rest
    return (name, content) :: contents

end

/-- What stands where another type is expected. -/
def found : Content → Found
  -- These are the kinds that errors name.
  | null => .null
  | bool b => .bool b
  | number n => .number n
  | string s => .string s
  | list _ => .list
  | object _ => .object

/-- The content is not of the expected type. -/
def wrongType {α : Type} (c : Content) (expected : String) : Except Error α :=
  -- The content has no faults that could come first.
  refuse (.wrongType c.found expected)

/-- A text, in the words of `expected`. -/
def quoted (expected : String) : Content → Except Error String
  -- The words are passed on, since paths are expected in other words than texts.
  | string s => .ok s
  | c => c.wrongType expected

/-- A text. -/
def text : Content → Except Error String :=
  -- All texts but paths are expected in these words.
  quoted "a string"

/-- The items of a list. -/
def items {α : Type} (read : Content → Except Error α) : Content → Except Error (List α)
  -- The first item that is not right is the one that is told.
  | list contents => contents.mapM read
  | c => c.wrongType "a sequence"

/-- Nothing, or an object that holds nothing. -/
def unit : Content → Except Error Unit
  -- An empty object is accepted, as it is what a variant without data may hold.
  | null | object [] => .ok ()
  | c => c.wrongType "unit"

/-- One of a few named values. -/
def choice {α : Type} (options : Choices α) : Content → Except Error α
  -- A name may stand alone, or as the only key of an object that holds nothing.
  | string s => options.pick s
  | object [(name, held)] => do
    let value ← options.pick name
    held.unit
    return value
  | object _ => refuse .notSingleKey
  | c => c.wrongType "string or map"

end Content

/-- What stands beside the tag of a tagged value. -/
inductive Payload where
  -- A tag in a list leaves items, and one in an object leaves members.
  | items (contents : List Content)
  | members (contents : List (String × Content))
deriving Inhabited, Repr

/-- The tag and the other members of an object, in text order, after those already seen. -/
def readTagged {β : Type} (tags : Choices β) (depth : Nat) (tag : Option β)
    (seen : List (String × Content)) :
    List (Quoted × Node) → Except Error (Option β × List (String × Content))
  -- Members in front of the tag are kept unread until the tag says how to read them.
  | [] => .ok (tag, seen.reverse)
  | (key, value) :: rest => do
    let name ← Error.ofFault key.text
    if name = "kind" then
      match tag with
      | some _ => refuse (.duplicateField "kind")
      | none =>
        let name ← Reader.quoted "variant identifier" ⟨depth, value⟩
        readTagged tags depth (some (← tags.pick name)) seen rest
    else
      let content ← Content.ofNode depth value
      readTagged tags depth tag ((name, content) :: seen) rest

/-- A tag, as the first item of a list or as the member `kind` of an object, and what is beside it.
-/
def Reader.tagged {β : Type} (title : String) (tags : Choices β) : Reader (β × Payload) := fun s =>
  -- The tag of a list must be its first item, and that of an object can be anywhere.
  match s.node with
  | .list items fault => do
    let depth ← s.enter
    match items with
    | [] => do
      closeWith fault ()
      refuse (.missingField "kind")
    | first :: rest =>
      let name ← Reader.quoted "variant identifier" ⟨depth, first⟩
      let tag ← tags.pick name
      let contents ← Content.ofItems depth rest
      closeWith fault (tag, .items contents)
  | .object members fault => do
    let depth ← s.enter
    let (tag, contents) ← readTagged tags depth none [] members
    closeWith fault ()
    match tag with
    | some tag => return (tag, .members contents)
    | none => refuse (.missingField "kind")
  | .keyless => refuseFault .malformed
  | _ => s.wrongType ("internally tagged enum " ++ title)

namespace Fields

/-- The fields after the members of an object whose contents are known. -/
def absorb {τ : Type} :
    Fields Content τ → List (String × Content) → Except Error (Fields Content τ)
  -- Members that no field takes are passed over.
  | fields, [] => .ok fields
  | fields, (name, content) :: rest =>
    match fields.put name content with
    | some (.ok fields) => fields.absorb rest
    | some (.error e) => .error e
    | none => fields.absorb rest

/-- The fields of a record called `title` from what stands beside a tag. -/
def ofPayload {τ : Type} (title : String) (fields : Fields Content τ) :
    Payload → Except Error τ
  -- The number of items is checked only when all fields have been read.
  | .items contents => do
    let (values, left) ← fields.ofList title fields.names.length none 0 contents
    if left.isEmpty then return values
    else refuse (.tooLong contents.length fields.names.length)
  | .members contents =>
    match fields.absorb contents with
    | .ok fields => fields.finish
    | .error e => .error e

end Fields

end BuildGraph.Json
