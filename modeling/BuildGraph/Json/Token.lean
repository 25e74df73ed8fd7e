/-! JSON text is cut into tokens, and a token that is broken off or misspelled is the last one. -/

namespace BuildGraph.Json

/-- What is wrong with a text: it ends too early, or it has something in the wrong place. -/
inductive Fault where
  -- Where a text ends too early, more of it could have helped; elsewhere nothing could.
  | truncated
  | malformed
deriving DecidableEq, Inhabited, Repr

/-- The three words a value can consist of. -/
inductive Word where
  | null
  | true
  | false
deriving DecidableEq, Inhabited, Repr

/-- One place of a quoted text: a character, or a 16-bit unit given by its number. -/
inductive Glyph where
  -- Units are kept by number until it is clear whether two of them belong together.
  | plain (c : Char)
  | unit (code : Nat)
deriving DecidableEq, Inhabited, Repr

/-- A quoted text, with the fault that broke it off. -/
structure Quoted where
  -- What stands before the fault is kept, since errors depend on it.
  glyphs : List Glyph
  fault : Option Fault := none
deriving DecidableEq, Inhabited, Repr

/-- A numeral as spelled, with the fault that broke it off. -/
structure Numeral where
  -- The spelling is kept, and nothing is computed yet.
  spelling : List Char
  fault : Option Fault := none
deriving DecidableEq, Inhabited, Repr

/-- The lexical units of a text. -/
inductive Token where
  -- Faults are tokens, too, so that their place among the others is known.
  | listOpen
  | listClose
  | objectOpen
  | objectClose
  | colon
  | comma
  | word (w : Word)
  /-- A word that was begun and not finished. -/
  | stub (fault : Fault)
  | numeral (n : Numeral)
  | quoted (q : Quoted)
  /-- A character that begins no token. -/
  | junk
deriving DecidableEq, Inhabited, Repr

/-- The characters that may stand between tokens. -/
def isBlank (c : Char) : Bool :=
  -- There are no other blanks, whatever else looks like one.
  c = ' ' ∨ c = '\n' ∨ c = '\t' ∨ c = '\r'

/-- The value of a hexadecimal digit. -/
def hexDigit? (c : Char) : Option Nat :=
  -- Both cases are taken.
  if '0' ≤ c ∧ c ≤ '9' then some (c.toNat - '0'.toNat)
  else if 'a' ≤ c ∧ c ≤ 'f' then some (c.toNat - 'a'.toNat + 10)
  else if 'A' ≤ c ∧ c ≤ 'F' then some (c.toNat - 'A'.toNat + 10)
  else none

/-- The character a backslash and a letter stand for. -/
def shortEscape? : Char → Option Char
  -- A slash may be escaped, though it never has to be.
  | '"' => some '"'
  | '\\' => some '\\'
  | '/' => some '/'
  | 'b' => some '\x08'
  | 'f' => some '\x0c'
  | 'n' => some '\n'
  | 'r' => some '\r'
  | 't' => some '\t'
  | _ => none

/-- The part of a numeral that was read last. -/
inductive NumeralPart where
  -- A zero in front ends the whole part.
  | sign
  | zero
  | whole
  | point
  | fraction
  | mark
  | markSign
  | power
deriving DecidableEq, Inhabited, Repr

namespace NumeralPart

/-- A numeral may end here. -/
def isComplete : NumeralPart → Bool
  -- The other parts want at least one more digit.
  | zero | whole | fraction | power => true
  | sign | point | mark | markSign => false

/-- The part that `c` belongs to, if it continues the numeral. -/
def next? (s : NumeralPart) (c : Char) : Option NumeralPart :=
  -- Each part knows what may follow it, so a numeral needs no second look.
  match s with
  | sign => if c = '0' then some zero else if c.isDigit then some whole else none
  | zero => if c = '.' then some point else if c = 'e' ∨ c = 'E' then some mark else none
  | whole =>
    if c.isDigit then some whole
    else if c = '.' then some point
    else if c = 'e' ∨ c = 'E' then some mark
    else none
  | point => if c.isDigit then some fraction else none
  | fraction =>
    if c.isDigit then some fraction else if c = 'e' ∨ c = 'E' then some mark else none
  | mark =>
    if c.isDigit then some power else if c = '+' ∨ c = '-' then some markSign else none
  | markSign | power => if c.isDigit then some power else none

/-- Whether `c` may stand right after a numeral that ends in this part. -/
def mayEndBefore (s : NumeralPart) (c : Char) : Bool :=
  -- A whole part that begins with zero has no second digit.
  s.isComplete && !(s = zero && c.isDigit)

end NumeralPart

/-- Where the reading of a text stands. -/
inductive Mode where
  -- What has been read is kept latest first.
  | between
  | word (w : Word) (left : List Char)
  | numeral (part : NumeralPart) (read : List Char)
  | quoted (read : List Glyph)
  | escape (read : List Glyph)
  /-- Inside the four digits of a unit, after `seen` good ones. -/
  | unit (read : List Glyph) (code seen : Nat)
  /-- Inside the four bytes of a unit with a character that is no digit. -/
  | spoilt (read : List Glyph) (seen : Nat)
  | halted
deriving Inhabited, Repr

/-- The tokens read so far, latest first, and where the reading stands. -/
structure Lexer where
  -- The mode holds the token that is not finished.
  done : List Token := []
  mode : Mode := .between
deriving Inhabited, Repr

namespace Lexer

/-- One more token, after which the reading stands in `mode`. -/
def emit (l : Lexer) (t : Token) (mode : Mode) : Lexer :=
  -- A token is done for good once it is there.
  ⟨t :: l.done, mode⟩

/-- The reading goes on in `mode`. -/
def enter (l : Lexer) (mode : Mode) : Lexer :=
  -- No token is done by this.
  ⟨l.done, mode⟩

/-- A quoted text is broken off, and nothing after it is read. -/
def breakQuoted (l : Lexer) (read : List Glyph) (fault : Fault) : Lexer :=
  -- The glyphs before the fault are kept with it.
  l.emit (.quoted ⟨read.reverse, some fault⟩) .halted

/-- A token begins at `c`, or `c` is blank. -/
def start (l : Lexer) (c : Char) : Lexer :=
  -- Words and numerals are told by their first character.
  match c with
  | '[' => l.emit .listOpen .between
  | ']' => l.emit .listClose .between
  | '{' => l.emit .objectOpen .between
  | '}' => l.emit .objectClose .between
  | ':' => l.emit .colon .between
  | ',' => l.emit .comma .between
  | '"' => l.enter (.quoted [])
  | 'n' => l.enter (.word .null ['u', 'l', 'l'])
  | 't' => l.enter (.word .true ['r', 'u', 'e'])
  | 'f' => l.enter (.word .false ['a', 'l', 's', 'e'])
  | '-' => l.enter (.numeral .sign [c])
  | '0' => l.enter (.numeral .zero [c])
  | _ =>
    if isBlank c then l.enter .between
    else if c.isDigit then l.enter (.numeral .whole [c])
    else l.emit .junk .halted

/-- The fourth byte of a unit that is no number of four digits is where it is found out. -/
def spoil (l : Lexer) (read : List Glyph) (seen : Nat) : Lexer :=
  -- Bytes are counted and not characters, since four bytes are what is read.
  if 4 ≤ seen then l.breakQuoted read .malformed else l.enter (.spoilt read seen)

/-- The reading after one more character. -/
def step (l : Lexer) (c : Char) : Lexer :=
  -- One character is looked at once, save the one that ends a numeral, which starts what follows.
  match l.mode with
  | .halted => l
  | .between => l.start c
  | .word _ [] => l.start c
  | .word w (next :: left) =>
    if c ≠ next then l.emit (.stub .malformed) .halted
    else if left.isEmpty then l.emit (.word w) .between
    else l.enter (.word w left)
  | .numeral part read =>
    match part.next? c with
    | some part => l.enter (.numeral part (c :: read))
    | none =>
      if part.mayEndBefore c then (l.emit (.numeral ⟨read.reverse, none⟩) .between).start c
      else l.emit (.numeral ⟨read.reverse, some .malformed⟩) .halted
  | .quoted read =>
    if c = '"' then l.emit (.quoted ⟨read.reverse, none⟩) .between
    else if c = '\\' then l.enter (.escape read)
    else if c.toNat < 0x20 then l.breakQuoted read .malformed
    else l.enter (.quoted (.plain c :: read))
  | .escape read =>
    if c = 'u' then l.enter (.unit read 0 0)
    else match shortEscape? c with
      | some meant => l.enter (.quoted (.plain meant :: read))
      | none => l.breakQuoted read .malformed
  | .unit read code seen =>
    match hexDigit? c with
    | some digit =>
      if seen = 3 then l.enter (.quoted (.unit (16 * code + digit) :: read))
      else l.enter (.unit read (16 * code + digit) (seen + 1))
    | none => l.spoil read (seen + c.utf8Size)
  | .spoilt read seen => l.spoil read (seen + c.utf8Size)

/-- The tokens of the text that ends here. -/
def finish (l : Lexer) : List Token :=
  -- Only in between is nothing missing; a numeral may be complete without having known it.
  let last := match l.mode with
    | .between | .halted => []
    | .word _ _ => [.stub .truncated]
    | .numeral part read =>
      [.numeral ⟨read.reverse, if part.isComplete then none else some .truncated⟩]
    | .quoted read | .escape read | .unit read _ _ | .spoilt read _ =>
      [.quoted ⟨read.reverse, some .truncated⟩]
  (last ++ l.done).reverse

end Lexer

/-- The tokens of a text. -/
def tokens (text : List Char) : List Token :=
  -- The fold never looks ahead.
  (text.foldl Lexer.step {}).finish

/-- The first half of a pair of units that stand for one character. -/
def isHighUnit (code : Nat) : Bool :=
  -- The two ranges do not overlap, so the order of a pair is clear.
  0xd800 ≤ code ∧ code < 0xdc00

/-- The second half of a pair of units that stand for one character. -/
def isLowUnit (code : Nat) : Bool :=
  -- The two ranges do not overlap, so the order of a pair is clear.
  0xdc00 ≤ code ∧ code < 0xe000

/-- The character that a pair of units stands for. -/
def pairedUnits (high low : Nat) : Char :=
  -- Each half gives ten bits.
  Char.ofNat (0x10000 + (high - 0xd800) * 0x400 + (low - 0xdc00))

namespace Quoted

/-- The characters of a quoted text, after those already read, latest first. -/
def charsFrom (ending : Option Fault) (read : List Char) : List Glyph → Except Fault (List Char)
  | [] =>
    match ending with
    | none => .ok read.reverse
    | some fault => .error fault
  | .plain c :: rest => charsFrom ending (c :: read) rest
  | .unit code :: rest =>
    if isLowUnit code then .error .malformed
    else if isHighUnit code then
      match rest with
      | .unit low :: rest =>
        if isLowUnit low then charsFrom ending (pairedUnits code low :: read) rest
        else .error .malformed
      | .plain _ :: _ => .error .malformed
      -- A text that ends inside a pair is as broken as where it was broken off.
      | [] => .error (ending.getD .malformed)
    else charsFrom ending (Char.ofNat code :: read) rest

/-- The text that is meant; units come alone or in pairs of a high and a low one. -/
def text (q : Quoted) : Except Fault String :=
  -- The fault comes after the glyphs before it, which may have one of their own.
  (charsFrom q.fault [] q.glyphs).map String.ofList

end Quoted

end BuildGraph.Json
