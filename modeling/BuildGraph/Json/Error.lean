import BuildGraph.Json.Number
import BuildGraph.Text

/-! The reasons for which a text is not taken as a value of a type, and their wording. -/

namespace BuildGraph.Json

universe u

/-- What was found where something else was expected. -/
inductive Found where
  -- Containers are named by their kind only.
  | null
  | bool (b : Bool)
  | number (n : Number)
  | string (s : String)
  | list
  | object
deriving DecidableEq, Inhabited, Repr

/-- How a well-formed value differs from what is expected of it. -/
inductive Mismatch where
  -- The text was in order here, but not what it says.
  | missingField (name : String)
  | duplicateField (name : String)
  | unknownField (name : String) (known : List String)
  | unknownVariant (name : String) (known : List String)
  | wrongType (found : Found) (expected : String)
  /-- A list gives too few of the fields of a record. -/
  | tooShort (count : Nat) (record : String) (fields : Nat)
  /-- A list gives more than the fields of a record. -/
  | tooLong (count : Nat) (fields : Nat)
  /-- A variant is given by an object that has not exactly one key. -/
  | notSingleKey
deriving DecidableEq, Inhabited, Repr

/-- Why a text is refused. -/
inductive Error where
  -- Faults come from the text, and mismatches from what is read of it.
  | fault (f : Fault)
  | mismatch (m : Mismatch)
deriving DecidableEq, Inhabited, Repr

/-- A name between marks. -/
def marked (name : String) : String :=
  -- The marks keep a name apart from the words around it.
  "`" ++ name ++ "`"

/-- The list of what would have been right. -/
def choices : List String → String
  -- The list is written out, however long it is.
  | [] => "nothing"
  | [one] => marked one
  | [one, two] => marked one ++ " or " ++ marked two
  | many => "one of " ++ ", ".intercalate (many.map marked)

/-- A count of elements. -/
def elements (n : Nat) : String :=
  -- There is no plural for one.
  toString n ++ if n = 1 then " element" else " elements"

/-- The words for what was found. -/
def Found.text : Found → String
  -- A number is shown in the spelling of its value and not of the text.
  | null => "null"
  | bool b => "boolean " ++ marked (if b then "true" else "false")
  | number (.integer n) => "integer " ++ marked (toString n)
  | number (.real bits) => "floating point " ++ marked (Decimal.ofBits realStyle bits)
  | string s => "string " ++ Text.shown s
  | list => "sequence"
  | object => "map"

/-- The words for a mismatch. -/
def Mismatch.message : Mismatch → String
  -- What would have been right is told where that is a short list.
  | missingField name => "missing field " ++ marked name
  | duplicateField name => "duplicate field " ++ marked name
  | unknownField name known => "unknown field " ++ marked name ++ ", expected " ++ choices known
  | unknownVariant name known => "unknown variant " ++ marked name ++ ", expected " ++ choices known
  | wrongType found expected => "invalid type: " ++ found.text ++ ", expected " ++ expected
  | tooShort count record fields =>
    "invalid length " ++ toString count ++ ", expected " ++ record ++ " with " ++ elements fields
  | tooLong count fields =>
    "invalid length " ++ toString count ++ ", expected " ++ elements fields ++ " in sequence"
  | notSingleKey => "invalid value: map, expected map with a single key"

/-- The words for an error; a fault of the text is only marked as one. -/
def Error.message : Error → String
  -- Places in the text are not told, and so neither are they compared.
  | fault .malformed => "<syntax>"
  | fault .truncated => "<eof>"
  | mismatch m => m.message

/-- The value is refused for the reason `m`. -/
def refuse {α : Type u} (m : Mismatch) : Except Error α :=
  -- This is the one way to say that a value is not the right one.
  .error (.mismatch m)

/-- The text is refused for a fault. -/
def refuseFault {α : Type u} (f : Fault) : Except Error α :=
  -- A fault says nothing about what was expected.
  .error (.fault f)

/-- A fault on the way to a value is a reason to refuse it. -/
def Error.ofFault {α : Type} : Except Fault α → Except Error α :=
  -- What is there is kept as it is.
  Except.mapError .fault

@[simp] theorem Error.ofFault_ok {α : Type} (a : α) : Error.ofFault (.ok a) = .ok a :=
  -- There is no fault to be told of.
  rfl

end BuildGraph.Json
