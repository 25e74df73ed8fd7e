import BuildGraph.Json.Token
import BuildGraph.Json.Value

/-! A written value is cut into the tokens of the value, whatever blanks it is set out with. -/

namespace BuildGraph.Json

/-- How a character stands in a quoted text: control characters without a letter of their own are
given by number. -/
def glyph (c : Char) : Glyph :=
  -- What is escaped by a letter is the character itself again.
  if c.toNat < 0x20 ∧ c ∉ ['\x08', '\x0c', '\n', '\r', '\t'] then .unit c.toNat else .plain c

/-- A text as it is quoted. -/
def Quoted.of (s : String) : Quoted :=
  -- A text that is written is never broken off.
  ⟨s.toList.map glyph, none⟩

namespace Value

mutual

/-- The tokens of a value. -/
def tokens : Value → List Token
  -- Blanks give no tokens, so the layout plays no part.
  | null => [.word .null]
  | bool true => [.word .true]
  | bool false => [.word .false]
  | string s => [.quoted (.of s)]
  | list [] => [.listOpen, .listClose]
  | list (first :: rest) => .listOpen :: tokens first ++ itemTokens rest ++ [.listClose]
  | object [] => [.objectOpen, .objectClose]
  | object ((key, value) :: rest) =>
    .objectOpen :: .quoted (.of key) :: .colon :: tokens value ++ memberTokens rest
      ++ [.objectClose]

/-- The tokens of the items after the first, each behind a comma. -/
def itemTokens : List Value → List Token
  -- The commas belong to the items behind them.
  | [] => []
  | first :: rest => .comma :: tokens first ++ itemTokens rest

/-- The tokens of the members after the first, each behind a comma. -/
def memberTokens : List (String × Value) → List Token
  -- The commas belong to the members behind them.
  | [] => []
  | (key, value) :: rest =>
    .comma :: .quoted (.of key) :: .colon :: tokens value ++ memberTokens rest

end

end Value

/-- Only blanks are added to what a layout sets out, and keys are parted from values by a colon. -/
structure Layout.Plain (layout : Layout) : Prop where
  -- Without this, what is set out could be read as something else.
  lead : ∀ depth, ∀ c ∈ layout.lead depth, isBlank c = true
  colon : ∃ blanks, layout.colon = ':' :: blanks ∧ ∀ c ∈ blanks, isBlank c = true

/-- What is written on one line has no blanks at all. -/
theorem Layout.plain_compact : Layout.compact.Plain :=
  -- There are no characters that could be anything but blanks.
  ⟨fun _ _ member => absurd member List.not_mem_nil, [], rfl, by simp⟩

/-- What is set out over lines has line feeds and spaces between the parts. -/
theorem Layout.plain_pretty : Layout.pretty.Plain where
  -- A lead is a line feed and spaces behind it.
  lead depth c member := by
    rcases List.mem_cons.mp member with rfl | space
    · decide
    · rw [List.eq_of_mem_replicate space]
      decide
  colon := ⟨[' '], rfl, by simp [isBlank]⟩

/-- A digit is read as the number that it was written for. -/
theorem hexDigit?_hexDigit {n : Nat} (small : n < 16) : hexDigit? (hexDigit n) = some n := by
  -- There are sixteen digits.
  have all : ∀ n < 16, hexDigit? (hexDigit n) = some n := by decide
  exact all n small

namespace Lexer

variable {done : List Token} {read : List Glyph} {layout : Layout}

/-- Blanks between tokens are passed over. -/
theorem foldl_blanks {blanks : List Char} (all : ∀ c ∈ blanks, isBlank c = true) :
    blanks.foldl step ⟨done, .between⟩ = ⟨done, .between⟩ := by
  -- Each of the four blanks leaves the lexer where it is.
  induction blanks with
  | nil => rfl
  | cons c rest ih =>
    have here : c = ' ' ∨ c = '\n' ∨ c = '\t' ∨ c = '\r' := by
      simpa [isBlank] using all c (.head _)
    have passed : step ⟨done, .between⟩ c = ⟨done, .between⟩ := by
      rcases here with rfl | rfl | rfl | rfl <;> rfl
    rw [List.foldl_cons, passed]
    exact ih fun c later => all c (.tail _ later)

/-- Inside quotes, what a character is written as is read as the character. -/
theorem foldl_escape (c : Char) :
    (escape c).foldl step ⟨done, .quoted read⟩ = ⟨done, .quoted (glyph c :: read)⟩ := by
  rw [escape.eq_def]
  split
  -- Seven characters have a letter of their own.
  iterate 7 rfl
  rename_i mark slash back feed line carriage tab
  split
  · -- The two digits of a control character are those of its number.
    rename_i control
    have high : hexDigit? (hexDigit (c.toNat / 16)) = some (c.toNat / 16) :=
      hexDigit?_hexDigit (by omega)
    have low : hexDigit? (hexDigit (c.toNat % 16)) = some (c.toNat % 16) :=
      hexDigit?_hexDigit (by omega)
    have zero : hexDigit? '0' = some 0 := by decide
    have code : 16 * (c.toNat / 16) + c.toNat % 16 = c.toNat := by omega
    simp_all [step, enter, glyph]
  · rename_i visible
    have plain : glyph c = .plain c := if_neg fun both => visible both.1
    simp only [List.foldl_cons, List.foldl_nil, step, plain, if_neg mark, if_neg slash,
      if_neg visible]
    rfl

/-- A text between quotes is read as one token. -/
theorem foldl_quote (s : String) :
    (quote s).foldl step ⟨done, .between⟩ = ⟨.quoted (.of s) :: done, .between⟩ := by
  -- The characters are read one by one, latest first.
  have inside : ∀ (chars : List Char) (read : List Glyph),
      (chars.flatMap escape).foldl step ⟨done, .quoted read⟩ =
        ⟨done, .quoted ((chars.map glyph).reverse ++ read)⟩ := by
    intro chars
    induction chars with
    | nil => intro read; rfl
    | cons c rest ih =>
      intro read
      rw [List.flatMap_cons, List.foldl_append, foldl_escape, ih]
      simp
  have opened : step ⟨done, .between⟩ '"' = ⟨done, .quoted []⟩ := rfl
  rw [quote, List.cons_append, List.foldl_cons, opened, List.foldl_append, inside]
  simp [step, emit, Quoted.of]

mutual

/-- A written value is read as its tokens. -/
theorem foldl_write (plain : layout.Plain) (depth : Nat) (v : Value) (done : List Token) :
    (v.write layout depth).foldl step ⟨done, .between⟩ = ⟨v.tokens.reverse ++ done, .between⟩ := by
  -- The induction follows the writer: a value, its further items, its further members. Between any
  -- two parts the lexer is between tokens, so that it does not matter what was read before.
  cases v with
  | null => rfl
  | bool b => cases b <;> rfl
  | string s =>
    rw [Value.write, foldl_quote]
    rfl
  | list items =>
    cases items with
    | nil => rfl
    | cons first rest =>
      have opened : step ⟨done, .between⟩ '[' = ⟨.listOpen :: done, .between⟩ := rfl
      simp only [Value.write, List.foldl_append, List.foldl_cons, opened,
        foldl_blanks (plain.lead _), foldl_write plain, foldl_writeItems plain]
      simp [Value.tokens, step, start, emit]
  | object members =>
    cases members with
    | nil => rfl
    | cons first rest =>
      obtain ⟨key, value⟩ := first
      obtain ⟨blanks, colon, all⟩ := plain.colon
      have opened : step ⟨done, .between⟩ '\x7b' = ⟨.objectOpen :: done, .between⟩ := rfl
      have parted : ∀ done, step ⟨done, .between⟩ ':' = ⟨.colon :: done, .between⟩ := fun _ => rfl
      -- The blanks before the key come from the lead, those after the colon from the layout.
      simp only [Value.write, List.foldl_append, List.foldl_cons, opened, colon, parted,
        foldl_blanks (plain.lead _), foldl_blanks all, foldl_quote, foldl_write plain,
        foldl_writeMembers plain]
      simp [Value.tokens, step, start, emit]

/-- The written items after the first are read as their tokens. -/
theorem foldl_writeItems (plain : layout.Plain) (depth : Nat) (items : List Value)
    (done : List Token) : (Value.writeItems layout depth items).foldl step ⟨done, .between⟩ =
      ⟨(Value.itemTokens items).reverse ++ done, .between⟩ := by
  -- A comma is read, then blanks, then the first item, and the same for those behind it.
  cases items with
  | nil => rfl
  | cons first rest =>
    have comma : step ⟨done, .between⟩ ',' = ⟨.comma :: done, .between⟩ := rfl
    simp only [Value.writeItems, List.foldl_append, List.foldl_cons, comma,
      foldl_blanks (plain.lead _), foldl_write plain, foldl_writeItems plain]
    simp [Value.itemTokens]

/-- The written members after the first are read as their tokens. -/
theorem foldl_writeMembers (plain : layout.Plain) (depth : Nat) (members : List (String × Value))
    (done : List Token) : (Value.writeMembers layout depth members).foldl step ⟨done, .between⟩ =
      ⟨(Value.memberTokens members).reverse ++ done, .between⟩ := by
  -- As for items, with the key and a colon in front of each value.
  cases members with
  | nil => rfl
  | cons first rest =>
    obtain ⟨key, value⟩ := first
    obtain ⟨blanks, colon, all⟩ := plain.colon
    have comma : step ⟨done, .between⟩ ',' = ⟨.comma :: done, .between⟩ := rfl
    have parted : ∀ done, step ⟨done, .between⟩ ':' = ⟨.colon :: done, .between⟩ := fun _ => rfl
    simp only [Value.writeMembers, List.foldl_append, List.foldl_cons, comma, colon, parted,
      foldl_blanks (plain.lead _), foldl_blanks all, foldl_quote, foldl_write plain,
      foldl_writeMembers plain]
    simp [Value.memberTokens]

end

end Lexer

/-- A written value has the tokens of the value, whatever blanks come behind it. -/
theorem tokens_write {layout : Layout} (plain : layout.Plain) (v : Value) {blanks : List Char}
    (all : ∀ c ∈ blanks, isBlank c = true) : tokens (v.write layout 0 ++ blanks) = v.tokens := by
  -- The lexer ends between tokens, so that nothing is added at the end.
  rw [tokens, List.foldl_append, Lexer.foldl_write plain, Lexer.foldl_blanks all]
  simp [Lexer.finish]

end BuildGraph.Json
