import BuildGraph.Json.Reader

/-! Records are read by the names of their fields, or by their places in a list. -/

namespace BuildGraph.Json

/-- A field of a record that is read from places of type `σ`. -/
structure Field (σ α : Type) where
  -- A field without a stand-in must be given.
  name : String
  read : σ → Except Error α
  /-- What stands for the field where it is not given. -/
  absent : Option α

/-- The fields of a record in order of declaration, each with the value given for it so far. -/
inductive Fields (σ : Type) : Type → Type 1 where
  -- The type lists the types of the fields, so that each value keeps its own.
  | done : Fields σ Unit
  | more {α β : Type} (field : Field σ α) (given : Option α) (rest : Fields σ β) : Fields σ (α × β)

namespace Fields

variable {σ α τ : Type}

/-- One more field in front, which must be given. -/
def required (name : String) (read : σ → Except Error α) (rest : Fields σ τ) :
    Fields σ (α × τ) :=
  -- There is no stand-in and nothing is given yet.
  .more ⟨name, read, none⟩ none rest

/-- One more field in front, for which `absent` stands in. -/
def optional (name : String) (read : σ → Except Error α) (absent : α) (rest : Fields σ τ) :
    Fields σ (α × τ) :=
  -- The stand-in is not read, so it need not be readable.
  .more ⟨name, read, some absent⟩ none rest

/-- The names of the fields. -/
def names {τ : Type} : Fields σ τ → List String
  -- The order is that of the declaration, which errors follow.
  | .done => []
  | .more field _ rest => field.name :: rest.names

/-- The fields with one more of them given, if one has the name. -/
def put {τ : Type} (name : String) (place : σ) : Fields σ τ → Option (Except Error (Fields σ τ))
  | .done => none
  | .more field given rest =>
    if field.name = name then
      match given with
      -- That a field is given twice is found out before its value is looked at.
      | some _ => some (refuse (.duplicateField name))
      | none =>
        match field.read place with
        | .ok value => some (.ok (.more field (some value) rest))
        | .error e => some (.error e)
    else (rest.put name place).map fun
      | .ok rest => .ok (.more field given rest)
      | .error e => .error e

/-- The values of all fields; the first that is neither given nor has a stand-in is missing. -/
def finish {τ : Type} : Fields σ τ → Except Error τ
  -- Fields in front come first, whatever the order in the text was.
  | .done => .ok ()
  | .more field given rest =>
    match given <|> field.absent with
    | none => refuse (.missingField field.name)
    | some value => rest.finish.map (value, ·)

/-- The values of all fields by their places in a list that ends with a fault or well, and what
is left of the list; `title` and `total` tell what a list that is too short was to be. -/
def ofList {τ : Type} (title : String) (total : Nat) (fault : Option Fault) (index : Nat) :
    Fields σ τ → List σ → Except Error (τ × List σ)
  -- A list gives fields by their places, so a gap can only be at its end.
  | .done, places => .ok ((), places)
  | .more field _ rest, place :: places => do
    let value ← field.read place
    let (values, left) ← rest.ofList title total fault (index + 1) places
    return ((value, values), left)
  | .more field _ rest, [] => do
    let value ← match fault, field.absent with
      | some fault, _ => refuseFault fault
      | none, none => refuse (.tooShort index title total)
      | none, some value => .ok value
    let (values, left) ← rest.ofList title total fault (index + 1) []
    return ((value, values), left)

/-- The fields after the members of an object, in text order. -/
def fill {τ : Type} (strict : Bool) (depth : Nat) :
    Fields Site τ → List (Quoted × Node) → Except Error (Fields Site τ)
  | fields, [] => .ok fields
  | fields, (key, value) :: rest =>
    match key.text with
    | .error fault => refuseFault fault
    | .ok name =>
      match fields.put name ⟨depth, value⟩ with
      | some (.ok fields) => fields.fill strict depth rest
      | some (.error e) => .error e
      | none =>
        if strict then refuse (.unknownField name fields.names)
        -- A member that no field asks for is skipped, which finds only faults.
        else match value.fault? with
          | some fault => refuseFault fault
          | none => fields.fill strict depth rest

/-- The fields of a record called `title`; a strict record refuses names it does not know. -/
def read {τ : Type} (title : String) (strict : Bool) (fields : Fields Site τ) : Reader τ := fun s =>
  -- A list has no names, so being strict makes no difference to it.
  match s.node with
  | .list items fault => do
    let depth ← s.enter
    let places := items.map fun item => (⟨depth, item⟩ : Site)
    let (values, left) ← fields.ofList title fields.names.length fault 0 places
    if left.isEmpty then closeWith fault values else refuseFault .malformed
  | .object members fault => do
    let depth ← s.enter
    match fields.fill strict depth members, fault with
    | .error e, _ => .error e
    | .ok _, some fault => refuseFault fault
    | .ok fields, none => fields.finish
  | .keyless => refuseFault .malformed
  | _ => s.wrongType title

end Fields

end BuildGraph.Json
