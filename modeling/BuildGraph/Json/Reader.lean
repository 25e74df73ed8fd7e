import BuildGraph.Json.Error
import BuildGraph.Json.Node

/-! Readers take a node as a value of a type and report the first thing amiss in text order. -/

namespace BuildGraph.Json

/-- A node together with the levels of containers that may still be entered. -/
structure Site where
  -- The levels belong to the place and not to the node.
  depth : Nat
  node : Node
deriving Inhabited, Repr

/-- A way to take a node as a value. -/
abbrev Reader (α : Type) :=
  -- Readers are plain functions, so they can be compared and put together.
  Site → Except Error α

/-- The levels of containers that a text may have, counted with one to spare. -/
def depthLimit : Nat :=
  -- One level less than this can be entered.
  128

/-- What stands at a node whose type is not the expected one. -/
def Node.found : Node → Except Error Found
  | .absent fault | .stub fault => refuseFault fault
  | .word .null => .ok .null
  | .word .true => .ok (.bool true)
  | .word .false => .ok (.bool false)
  | .numeral n => (Error.ofFault n.value).map .number
  | .quoted q => (Error.ofFault q.text).map .string
  -- What a container holds is not looked at.
  | .list _ _ => .ok .list
  | .object _ _ | .keyless => .ok .object

namespace Site

/-- A node that is not of the expected type is refused, or else a fault in it is. -/
def wrongType {α : Type} (s : Site) (expected : String) : Except Error α :=
  -- A fault at the very beginning of a value comes before any question of type.
  match s.node.found with
  | .ok found => refuse (.wrongType found expected)
  | .error e => .error e

/-- The levels left inside a container; the last level is never entered. -/
def enter (s : Site) : Except Error Nat :=
  -- The node is not looked at, since lists and objects count alike.
  match s.depth with
  | 0 | 1 => refuseFault .malformed
  | depth + 2 => .ok (depth + 1)

end Site

/-- A container is taken only if nothing is wrong at its end. -/
def closeWith {α : Type} (fault : Option Fault) (a : α) : Except Error α :=
  -- The fault comes last, after all that stands before it.
  match fault with
  | none => .ok a
  | some fault => refuseFault fault

namespace Reader

/-- A text, in the words of `expected`. -/
def quoted (expected : String) : Reader String := fun s =>
  -- Escapes are resolved here, and may fail here.
  match s.node with
  | .quoted q => Error.ofFault q.text
  | _ => s.wrongType expected

/-- A text. -/
def string : Reader String :=
  -- All texts but paths are expected in these words.
  quoted "a string"

/-- A truth value. -/
def bool : Reader Bool := fun s =>
  -- Nothing else stands for a truth value, numbers and texts included.
  match s.node with
  | .word .true => .ok true
  | .word .false => .ok false
  | _ => s.wrongType "a boolean"

/-- The value that stands for nothing. -/
def unit : Reader Unit := fun s =>
  -- Here an empty object is refused.
  match s.node with
  | .word .null => .ok ()
  | _ => s.wrongType "unit"

/-- A value, or nothing. -/
def option {α : Type} (read : Reader α) : Reader (Option α) := fun s =>
  -- What may be there must be right if it is there.
  match s.node with
  | .word .null => .ok none
  | _ => (read s).map some

/-- The items of a list. -/
def list {α : Type} (read : Reader α) : Reader (List α) := fun s =>
  -- Items are read in text order, and the first that is not right is the one that is told.
  match s.node with
  | .list items fault => do
    let depth ← s.enter
    let values ← items.mapM fun item => read ⟨depth, item⟩
    closeWith fault values
  | _ => s.wrongType "a sequence"

/-- The members of an object whose keys are free, in text order. -/
def members {α : Type} (read : Reader α) : Reader (List (String × α)) := fun s =>
  -- Keys may repeat; whoever asked decides what that means.
  match s.node with
  | .object members fault => do
    let depth ← s.enter
    let entries ← members.mapM fun (key, value) => do
      let name ← Error.ofFault key.text
      let value ← read ⟨depth, value⟩
      return (name, value)
    closeWith fault entries
  | .keyless => refuseFault .malformed
  | _ => s.wrongType "a map"

/-- The value that a whole text spells; what follows it is looked at last. -/
def ofDocument {α : Type} (read : Reader α) (d : Document) : Except Error α := do
  -- A value that is not right is told before what follows it.
  let value ← read ⟨depthLimit, d.root⟩
  if d.trailing then refuseFault .malformed else return value

/-- The value that a text spells. -/
def ofText {α : Type} (read : Reader α) (text : String) : Except Error α :=
  -- The whole text is taken apart before the first value is read.
  read.ofDocument (.ofText text.toList)

end Reader

/-- The values of a type by their names. -/
abbrev Choices (α : Type) :=
  -- The order is that in which errors list the names.
  List (String × α)

/-- The value with a name. -/
def Choices.pick {α : Type} (options : Choices α) (name : String) : Except Error α :=
  -- The first entry of a name counts.
  match options.lookup name with
  | some value => .ok value
  | none => refuse (.unknownVariant name (options.map Prod.fst))

/-- The value whose name stands alone, or as the one key of an object that holds nothing for it. -/
def Reader.choice {α : Type} (options : Choices α) : Reader α := fun s =>
  match s.node with
  | .quoted q => do options.pick (← Error.ofFault q.text)
  | .object members fault => do
    let depth ← s.enter
    match members with
    | [] => refuseFault (fault.getD .malformed)
    | (key, value) :: more =>
      let chosen ← options.pick (← Error.ofFault key.text)
      Reader.unit ⟨depth, value⟩
      if more.isEmpty then closeWith fault chosen else refuseFault .malformed
  | .absent fault => refuseFault fault
  -- Nothing else can be a name, so the place itself is at fault.
  | .keyless | .stub _ | .word _ | .numeral _ | .list _ _ => refuseFault .malformed

end BuildGraph.Json
