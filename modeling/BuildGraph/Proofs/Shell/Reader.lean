import Mathlib.Data.List.Basic

/-! How a shell takes a text apart into words and operators, before it looks at what they mean. -/

namespace BuildGraph.Shell

/-- A character of a word, and whether it was quoted. -/
structure Sign where
  -- Quoting matters for what a shell does with a word after it has been read.
  char : Char
  quoted : Bool
deriving DecidableEq, Repr

/-- What a text is made of. -/
inductive Token where
  -- The reader gives the tokens apart, without a grammar of commands.
  /-- A word, without the marks by which parts of it were quoted. -/
  | word (signs : List Sign)
  | operator (text : List Char)
  | newline
deriving DecidableEq, Repr

/-- A text that is not quoted. -/
def unquoted (text : String) : List Sign :=
  -- All signs of the text are bare.
  text.toList.map fun c => ⟨c, false⟩

/-- Where a reader is inside a word. -/
inductive Mode where
  -- The quotes of a word do not nest.
  | bare
  /-- Behind a backslash. -/
  | escaped
  | single
  | double
  /-- Behind a backslash inside double quotes. -/
  | doubleEscaped
deriving DecidableEq, Repr

/-- What a reader does at a character. -/
inductive Move where
  -- Nothing is expanded here: where an expansion begins, the reading is given up.
  /-- The word ends in front of the character. -/
  | stop
  /-- The character starts an expansion, which cannot be told from the text alone. -/
  | expand
  /-- The character stands for some signs, or for none. -/
  | take (signs : List Sign) (next : Mode)

/-- A character between words that belongs to none. -/
def isBlank (c : Char) : Bool :=
  -- A line feed is no blank, as it ends a command.
  c ∈ [' ', '\t']

/-- A character that starts an operator. -/
def startsOperator (c : Char) : Bool :=
  -- Each of them is an operator by itself.
  c ∈ ['&', '|', ';', '<', '>', '(', ')']

/-- A character that starts an expansion. -/
def startsExpansion (c : Char) : Bool :=
  -- Both begin something that depends on more than the text.
  c ∈ ['$', '\x60']

/-- What a reader does at a character inside a word, by where it is. -/
def move : Mode → Char → Move
  | .bare, c =>
    if c = '\\' then .take [] .escaped
    else if c = '\'' then .take [] .single
    else if c = '"' then .take [] .double
    else if startsExpansion c then .expand
    else if isBlank c || c = '\n' || startsOperator c then .stop
    else .take [⟨c, false⟩] .bare
  | .escaped, c =>
    -- A line that ends in a backslash goes on in the next.
    if c = '\n' then .take [] .bare else .take [⟨c, true⟩] .bare
  | .single, c => if c = '\'' then .take [] .bare else .take [⟨c, true⟩] .single
  | .double, c =>
    if c = '"' then .take [] .bare
    else if c = '\\' then .take [] .doubleEscaped
    else if startsExpansion c then .expand
    else .take [⟨c, true⟩] .double
  | .doubleEscaped, c =>
    if c = '\n' then .take [] .double
    else if startsExpansion c || c = '"' || c = '\\' then .take [⟨c, true⟩] .double
    -- In front of anything else, the backslash stands for itself.
    else .take [⟨'\\', true⟩, ⟨c, true⟩] .double

/-- A reading with signs put in front of it. -/
def prepend (signs : List Sign) (read : Option (List Sign × List Char)) :
    Option (List Sign × List Char) :=
  -- A reading that was given up stays so.
  read.map fun (more, left) => (signs ++ more, left)

/-- The rest of a word and what follows it, unless a quote is left open or there is an expansion. -/
def readWord : Mode → List Char → Option (List Sign × List Char)
  -- A word must not end with a quote open.
  | mode, [] => if mode = .bare then some ([], []) else none
  | mode, c :: rest =>
    match move mode c with
    | .stop => some ([], c :: rest)
    | .expand => none
    | .take signs next => prepend signs (readWord next rest)

/-- Signs that are put in front one after another are put there together. -/
theorem prepend_prepend (a b : List Sign) (read : Option (List Sign × List Char)) :
    prepend a (prepend b read) = prepend (a ++ b) read := by
  -- A reading that failed stays failed.
  cases read <;> simp [prepend]

/-- Nothing is put in front. -/
@[simp] theorem prepend_nil (read : Option (List Sign × List Char)) : prepend [] read = read := by
  -- A reading that failed stays failed.
  cases read <;> rfl

/-- One step of a reader that takes a character. -/
theorem readWord_take {mode next : Mode} {c : Char} {signs : List Sign} (rest : List Char)
    (taken : move mode c = .take signs next) :
    readWord mode (c :: rest) = prepend signs (readWord next rest) := by
  -- The move decides what the reader does with the character.
  rw [readWord, taken]

/-- A character that means nothing more in a word than that it is part of it. -/
def isOrdinary (c : Char) : Bool :=
  -- These can be read at any place of a bare word.
  !(c ∈ ['\\', '\'', '"', '\n'] || startsExpansion c || isBlank c || startsOperator c)

/-- An ordinary character is taken as it is. -/
theorem move_ordinary {c : Char} (ordinary : isOrdinary c = true) :
    move .bare c = .take [⟨c, false⟩] .bare := by
  -- None of the characters that are told apart is ordinary.
  simp only [isOrdinary, List.mem_cons, List.not_mem_nil, or_false, Bool.not_eq_true',
    Bool.or_eq_false_iff, decide_eq_false_iff_not, not_or] at ordinary
  simp [move, ordinary]

/-- Ordinary characters are read as they are. -/
theorem readWord_unquoted {text : String} (ordinary : text.toList.all isOrdinary = true)
    (rest : List Char) :
    readWord .bare (text.toList ++ rest) = prepend (unquoted text) (readWord .bare rest) := by
  rw [unquoted]
  generalize text.toList = cs at ordinary ⊢
  -- Each character is one step, and the mode stays the same.
  induction cs with
  | nil => exact (prepend_nil _).symm
  | cons c others ih =>
    rw [List.all_cons, Bool.and_eq_true] at ordinary
    rw [List.cons_append, readWord_take _ (move_ordinary ordinary.1), ih ordinary.2,
      prepend_prepend]
    rfl

/-- The operators of a shell. -/
def operators : List (List Char) :=
  -- Every beginning of an operator is one, so the longest can be found step by step.
  ["&&", "||", ";;", "<<", ">>", "<&", ">&", "<>", "<<-", ">|", "&", "|", ";", "<", ">", "(",
    ")"].map String.toList

/-- An operator that has begun is as long as it can be. -/
def readOperator (begun : List Char) : List Char → List Char × List Char
  -- A continued line does not end an operator.
  | [] => (begun, [])
  | '\\' :: '\n' :: rest => readOperator begun rest
  | c :: rest =>
    if begun ++ [c] ∈ operators then readOperator (begun ++ [c]) rest else (begun, c :: rest)

/-- What is left of a text from its next token on: blanks and continued lines are passed over, and
comments up to the ends of their lines. -/
def skip (comment : Bool) : List Char → List Char
  -- A comment ends with its line, even where a backslash stands at the end of that.
  | [] => []
  | '\\' :: '\n' :: rest => if comment then '\n' :: rest else skip false rest
  | c :: rest =>
    if comment then (if c = '\n' then c :: rest else skip true rest)
    else if c = '#' then skip true rest
    else if isBlank c then skip false rest
    else c :: rest

/-- The next token of a text and what follows it, if there is one. -/
def readToken (text : List Char) : Option (Token × List Char) :=
  -- The three kinds of tokens are told by their first character.
  match skip false text with
  | [] => none
  | c :: rest =>
    if c = '\n' then some (.newline, rest)
    else if startsOperator c then
      let (operator, left) := readOperator [c] rest
      some (.operator operator, left)
    else (readWord .bare (c :: rest)).map fun (signs, left) => (.word signs, left)

/-- A text starts with a word: there is no blank, comment, operator or end of a line in front. -/
def StartsWord (text : List Char) : Prop :=
  -- Being the rest of itself means that nothing is passed over.
  ∃ c rest, text = c :: rest ∧ skip false text = text ∧ c ≠ '\n' ∧ startsOperator c = false

/-- A word at the start of a text is its next token, and ends at a blank. -/
theorem StartsWord.readToken_eq {text rest : List Char} {signs : List Sign}
    (starts : StartsWord text)
    (read : readWord .bare text = prepend signs (readWord .bare (' ' :: rest))) :
    readToken text = some (.word signs, ' ' :: rest) := by
  -- Nothing in front is skipped, and no operator is read in its stead.
  have ended : readWord .bare (' ' :: rest) = some ([], ' ' :: rest) := rfl
  obtain ⟨c, others, rfl, kept, inLine, noOperator⟩ := starts
  rw [readToken, kept]
  simp [inLine, noOperator, read, ended, prepend]

/-- A word can start with an ordinary character, unless that starts a comment. -/
theorem startsWord_ordinary {c : Char} (ordinary : isOrdinary c = true) (noComment : c ≠ '#')
    (rest : List Char) : StartsWord (c :: rest) := by
  -- Blanks, comments, line feeds and operators begin with other characters.
  simp only [isOrdinary, List.mem_cons, List.not_mem_nil, or_false, Bool.not_eq_true',
    Bool.or_eq_false_iff, decide_eq_false_iff_not, not_or] at ordinary
  exact ⟨c, rest, rfl, by simp [skip, ordinary, noComment], by simp [ordinary], by simp [ordinary]⟩

/-- Blanks in front of a token are passed over. -/
theorem readToken_blank (rest : List Char) : readToken (' ' :: rest) = readToken rest :=
  -- The blank is skipped.
  rfl

/-- Ordinary characters in front of a blank are one token. -/
theorem readToken_unquoted {text : String} (ordinary : text.toList.all isOrdinary = true)
    (noComment : ∃ c ∈ text.toList.head?, c ≠ '#') (rest : List Char) :
    readToken (text.toList ++ ' ' :: rest) = some (.word (unquoted text), ' ' :: rest) := by
  -- The first character shows that a word begins, and the blank ends it.
  have starts : StartsWord (text.toList ++ ' ' :: rest) := by
    obtain ⟨c, first, noComment⟩ := noComment
    have plain := List.all_eq_true.mp ordinary c (List.mem_of_mem_head? first)
    obtain ⟨others, shape⟩ := List.head?_eq_some_iff.mp first
    rw [shape]
    exact startsWord_ordinary plain noComment _
  exact starts.readToken_eq (readWord_unquoted ordinary _)

/-- A number of tokens of a text and what follows them, if there are so many. -/
def readTokens : Nat → List Char → Option (List Token × List Char)
  -- The number bounds the reading, so the text may go on in any way.
  | 0, text => some ([], text)
  | n + 1, text => do
    let (first, rest) ← readToken text
    let (others, left) ← readTokens n rest
    return (first :: others, left)

/-- Tokens are read one by one. -/
theorem readTokens_cons {n : Nat} {text rest left : List Char} {first : Token}
    {others : List Token} (read : readToken text = some (first, rest))
    (more : readTokens n rest = some (others, left)) :
    readTokens (n + 1) text = some (first :: others, left) := by
  -- The others are read from where the first one ends.
  rw [readTokens, read]
  simp [more]

/-- Quotes do not end words, and a comment ends where its line does. -/
example : readTokens 4 "cd \"a b\"'c'\\ d;# no ; words\nls".toList = some ([.word (unquoted "cd"),
    .word [⟨'a', true⟩, ⟨' ', true⟩, ⟨'b', true⟩, ⟨'c', true⟩, ⟨' ', true⟩, ⟨'d', false⟩],
    .operator [';'], .newline], "ls".toList) := by decide

end BuildGraph.Shell
