import BuildGraph.Json.Token

/-! A text as a tree that keeps every fault in the place where a reader meets it. -/

namespace BuildGraph.Json

/-- A value as far as the text gives it; whatever follows a fault is left out. -/
inductive Node where
  -- Faults stand where they were met, so a reader that stops earlier never sees them.
  /-- No value begins here. -/
  | absent (fault : Fault)
  /-- A word was begun and not finished. -/
  | stub (fault : Fault)
  | word (w : Word)
  | numeral (n : Numeral)
  | quoted (q : Quoted)
  /-- The fault, if any, comes after the last item or inside it. -/
  | list (items : List Node) (fault : Option Fault)
  /-- The fault, if any, comes after the last member or inside it. -/
  | object (members : List (Quoted × Node)) (fault : Option Fault)
  /-- An object that opens with something else than a key, which is never looked at. -/
  | keyless
deriving Inhabited, Repr

namespace Node

/-- What is wrong with a value for a reader who only looks for its end. -/
def fault? : Node → Option Fault
  | absent fault | stub fault => some fault
  | word _ => none
  -- A numeral that is only skipped is never found to end too early.
  | numeral n => n.fault.map fun _ => .malformed
  | quoted q => q.fault
  | list _ fault | object _ fault => fault
  | keyless => some .malformed

end Node

/-- A container that is still open around the place reached. -/
inductive Frame where
  -- The parts are kept latest first.
  | list (done : List Node)
  | member (done : List (Quoted × Node)) (key : Quoted)
deriving Inhabited, Repr

/-- What may come next, inside the containers still open, innermost first. -/
inductive Build where
  -- Each constructor is a place in the grammar, with what is needed to go on from there.
  | value (stack : List Frame)
  | firstItem (stack : List Frame)
  | afterItem (done : List Node) (stack : List Frame)
  | firstKey (stack : List Frame)
  | nextKey (done : List (Quoted × Node)) (stack : List Frame)
  | colon (done : List (Quoted × Node)) (key : Quoted) (stack : List Frame)
  | afterMember (done : List (Quoted × Node)) (stack : List Frame)
  /-- The outermost value is there, and nothing may follow. -/
  | whole (root : Node)
  | trailing (root : Node)
  | broken (root : Node)
deriving Inhabited, Repr

/-- The outermost value of a text, and whether anything follows it. -/
structure Document where
  -- What follows the root is not kept, only that there is something.
  root : Node
  trailing : Bool := false
deriving Inhabited, Repr

namespace Build

/-- A complete value takes its place in the innermost open container. -/
def settle (node : Node) : List Frame → Build
  -- Without an open container the value is the whole.
  | [] => whole node
  | .list done :: stack => afterItem (node :: done) stack
  | .member done key :: stack => afterMember ((key, node) :: done) stack

/-- A faulty value ends the text: all open containers end with its fault. -/
def abandon (fault : Fault) (node : Node) : List Frame → Build
  -- The containers are closed from the inside out.
  | [] => broken node
  | .list done :: stack => abandon fault (.list (node :: done).reverse (some fault)) stack
  | .member done key :: stack =>
    abandon fault (.object ((key, node) :: done).reverse (some fault)) stack

/-- The value that a token gives by itself. -/
def leaf : Token → Node
  -- Brackets, commas and the like give no value by themselves.
  | .word w => .word w
  | .stub fault => .stub fault
  | .numeral n => .numeral n
  | .quoted q => .quoted q
  | .listOpen | .listClose | .objectOpen | .objectClose | .colon | .comma | .junk =>
    .absent .malformed

/-- A token where a value must come. -/
def begin (stack : List Frame) : Token → Build
  -- A bracket opens a container, and everything else is a value or a fault.
  | .listOpen => firstItem stack
  | .objectOpen => firstKey stack
  | t =>
    match (leaf t).fault? with
    | none => settle (leaf t) stack
    | some fault => abandon fault (leaf t) stack

/-- A member that has no proper key ends the text. -/
def spoilKey (done : List (Quoted × Node)) (key : Quoted) (fault : Fault) (stack : List Frame) :
    Build :=
  -- The key is kept without a value, so that its own fault can be met.
  abandon fault (.object ((key, .absent fault) :: done).reverse (some fault)) stack

/-- The state after one more token. -/
def shift (b : Build) (t : Token) : Build :=
  -- An empty container may close at once, and after a comma it may not.
  match b with
  | value stack => begin stack t
  | firstItem stack =>
    match t with
    | .listClose => settle (.list [] none) stack
    | _ => begin (.list [] :: stack) t
  | afterItem done stack =>
    match t with
    | .comma => value (.list done :: stack)
    | .listClose => settle (.list done.reverse none) stack
    | _ => abandon .malformed (.list done.reverse (some .malformed)) stack
  | firstKey stack =>
    match t with
    | .objectClose => settle (.object [] none) stack
    | .quoted ⟨glyphs, none⟩ => colon [] ⟨glyphs, none⟩ stack
    | .quoted ⟨glyphs, some fault⟩ => spoilKey [] ⟨glyphs, some fault⟩ fault stack
    | _ => abandon .malformed .keyless stack
  | nextKey done stack =>
    match t with
    | .quoted ⟨glyphs, none⟩ => colon done ⟨glyphs, none⟩ stack
    | .quoted ⟨glyphs, some fault⟩ => spoilKey done ⟨glyphs, some fault⟩ fault stack
    | _ => spoilKey done ⟨[], some .malformed⟩ .malformed stack
  | colon done key stack =>
    match t with
    | .colon => value (.member done key :: stack)
    | _ => spoilKey done key .malformed stack
  | afterMember done stack =>
    match t with
    | .comma => nextKey done stack
    | .objectClose => settle (.object done.reverse none) stack
    | _ => abandon .malformed (.object done.reverse (some .malformed)) stack
  | whole root => trailing root
  | trailing root => trailing root
  | broken root => broken root

/-- The state when the text ends here. -/
def cutOff : Build → Build
  -- The fault stands where the next part would have begun.
  | value stack => abandon .truncated (.absent .truncated) stack
  | firstItem stack => abandon .truncated (.list [] (some .truncated)) stack
  | afterItem done stack => abandon .truncated (.list done.reverse (some .truncated)) stack
  | firstKey stack => abandon .truncated (.object [] (some .truncated)) stack
  | nextKey done stack => spoilKey done ⟨[], some .truncated⟩ .truncated stack
  | colon done key stack => spoilKey done key .truncated stack
  | afterMember done stack => abandon .truncated (.object done.reverse (some .truncated)) stack
  | b => b

/-- The document of a text that ends here; open containers have no root. -/
def document (b : Build) : Document :=
  -- After the cut nothing is open any more, so the last case never occurs.
  match b.cutOff with
  | trailing root => ⟨root, true⟩
  | whole root | broken root => ⟨root, false⟩
  | _ => ⟨.absent .truncated, false⟩

end Build

/-- The document that a text spells. -/
def Document.ofText (text : List Char) : Document :=
  -- Tokens, tree and values are made one after another, and no step looks back.
  ((tokens text).foldl Build.shift (.value [])).document

end BuildGraph.Json
