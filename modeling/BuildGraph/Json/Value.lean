/-! The values that are written, and their two written forms. -/

namespace BuildGraph.Json

/-- A value to be written. -/
inductive Value where
  -- Numbers are missing, since none are ever written.
  | null
  | bool (b : Bool)
  | string (s : String)
  | list (items : List Value)
  | object (members : List (String × Value))
deriving Inhabited, Repr

/-- A digit of a number written to the base sixteen. -/
def hexDigit (n : Nat) : Char :=
  -- Letters are small.
  if n < 10 then Char.ofNat ('0'.toNat + n) else Char.ofNat ('a'.toNat + (n - 10))

/-- A character inside quotes: quotes, backslashes and control characters are escaped. -/
def escape (c : Char) : List Char :=
  -- Control characters without a letter of their own are written as units.
  match c with
  | '"' => ['\\', '"']
  | '\\' => ['\\', '\\']
  | '\x08' => ['\\', 'b']
  | '\x0c' => ['\\', 'f']
  | '\n' => ['\\', 'n']
  | '\r' => ['\\', 'r']
  | '\t' => ['\\', 't']
  | _ =>
    if c.toNat < 0x20 then ['\\', 'u', '0', '0', hexDigit (c.toNat / 16), hexDigit (c.toNat % 16)]
    else [c]

/-- A text between quotes. -/
def quote (s : String) : List Char :=
  -- What needs no escape stands as it is, in whatever script.
  '"' :: s.toList.flatMap escape ++ ['"']

/-- How the parts of a container are set out. -/
structure Layout where
  -- Two functions are enough, as lists and objects are set out alike.
  /-- What stands before a part at a depth, and before the bracket that closes at a depth. -/
  lead : Nat → List Char
  /-- What stands between a key and its value. -/
  colon : List Char

namespace Layout

/-- Everything on one line, without blanks. -/
def compact : Layout :=
  -- A text of this layout has no line feed of its own.
  ⟨fun _ => [], [':']⟩

/-- Each part on a line of its own, two blanks deeper than its container. -/
def pretty : Layout :=
  -- The closing bracket stands below the beginning of the line that its container opens on.
  ⟨fun depth => '\n' :: List.replicate (2 * depth) ' ', [':', ' ']⟩

end Layout

namespace Value

mutual

/-- The text of a value whose container stands at `depth`. -/
def write (layout : Layout) (depth : Nat) : Value → List Char
  -- Empty containers stay on one line in every layout.
  | null => ['n', 'u', 'l', 'l']
  | bool true => ['t', 'r', 'u', 'e']
  | bool false => ['f', 'a', 'l', 's', 'e']
  | string s => quote s
  | list [] => ['[', ']']
  | list (first :: rest) =>
    '[' :: layout.lead (depth + 1) ++ write layout (depth + 1) first
      ++ writeItems layout (depth + 1) rest ++ layout.lead depth ++ [']']
  | object [] => ['\x7b', '\x7d']
  | object ((key, value) :: rest) =>
    '\x7b' :: layout.lead (depth + 1) ++ quote key ++ layout.colon
      ++ write layout (depth + 1) value
      ++ writeMembers layout (depth + 1) rest ++ layout.lead depth ++ ['\x7d']

/-- The items after the first, each behind a comma. -/
def writeItems (layout : Layout) (depth : Nat) : List Value → List Char
  -- The recursion goes through the list, so it is structural in the value.
  | [] => []
  | first :: rest =>
    ',' :: layout.lead depth ++ write layout depth first ++ writeItems layout depth rest

/-- The members after the first, each behind a comma. -/
def writeMembers (layout : Layout) (depth : Nat) : List (String × Value) → List Char
  -- Keys are written in the order given, and not sorted here.
  | [] => []
  | (key, value) :: rest =>
    ',' :: layout.lead depth ++ quote key ++ layout.colon ++ write layout depth value
      ++ writeMembers layout depth rest

end

/-- The text of a value on one line. -/
def compact (v : Value) : String :=
  -- The outermost value stands at no depth.
  String.ofList (v.write .compact 0)

/-- The text of a value set out over lines. -/
def pretty (v : Value) : String :=
  -- No line feed is put behind the whole.
  String.ofList (v.write .pretty 0)

/-- A text, or nothing. -/
def ofOption (s : Option String) : Value :=
  -- Nothing is written as `null`, and a text never is.
  s.elim null string

end Value

end BuildGraph.Json
