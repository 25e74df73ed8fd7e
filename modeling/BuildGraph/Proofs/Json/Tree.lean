import BuildGraph.Json.Node
import BuildGraph.Proofs.Json.Tokens

/-! The tokens of a value make up one node without a fault, whose texts are those of the value. -/

namespace BuildGraph.Json

namespace Quoted

/-- A unit that is no half of a pair is a character by itself. -/
theorem charsFrom_unit {ending : Option Fault} {read : List Char} {code : Nat} {rest : List Glyph}
    (small : code < 0xd800) : charsFrom ending read (.unit code :: rest) =
      charsFrom ending (Char.ofNat code :: read) rest := by
  -- The halves of pairs are all greater.
  have low : isLowUnit code = false := by
    simp [isLowUnit]
    omega
  have high : isHighUnit code = false := by
    simp [isHighUnit]
    omega
  rw [charsFrom.eq_def]
  simp only [low, high]
  rfl

/-- A character is the one that it stands for. -/
theorem charsFrom_glyph {ending : Option Fault} {read : List Char} {c : Char} {rest : List Glyph} :
    charsFrom ending read (glyph c :: rest) = charsFrom ending (c :: read) rest := by
  -- The number of a control character is small.
  rw [glyph]
  split
  · rename_i control
    rw [charsFrom_unit (by omega), Char.ofNat_toNat]
  · rw [charsFrom]

/-- A quoted text is the text that was quoted. -/
theorem text_of (s : String) : (of s).text = .ok s := by
  -- The characters are read one by one, latest first.
  have chars : ∀ list read : List Char,
      charsFrom none read (list.map glyph) = .ok (read.reverse ++ list) := by
    intro list
    induction list with
    | nil => intro read; simp [charsFrom]
    | cons c rest ih =>
      intro read
      rw [List.map_cons, charsFrom_glyph, ih]
      simp
  rw [text, of, chars]
  simp [Except.map]

end Quoted

namespace Value

mutual

/-- The node of a value. -/
def node : Value → Node
  -- No node of a value has a fault in it.
  | null => .word .null
  | bool true => .word .true
  | bool false => .word .false
  | string s => .quoted (.of s)
  | list items => .list (itemNodes items) none
  | object members => .object (memberNodes members) none

/-- The nodes of items. -/
def itemNodes : List Value → List Node
  -- The items stand in text order.
  | [] => []
  | first :: rest => node first :: itemNodes rest

/-- The nodes of members, each behind its key. -/
def memberNodes : List (String × Value) → List (Quoted × Node)
  -- The members stand in text order, with keys that may repeat.
  | [] => []
  | (key, value) :: rest => (.of key, node value) :: memberNodes rest

end

/-- The nodes of items are those of the items one by one. -/
theorem itemNodes_eq (items : List Value) : itemNodes items = items.map node := by
  -- The recursion is the one of a map.
  induction items with
  | nil => rfl
  | cons first rest ih => rw [itemNodes, ih, List.map_cons]

/-- The nodes of members are those of the members one by one. -/
theorem memberNodes_eq (members : List (String × Value)) :
    memberNodes members = members.map fun m => (.of m.1, m.2.node) := by
  -- The recursion is the one of a map.
  induction members with
  | nil => rfl
  | cons first rest ih =>
    obtain ⟨key, value⟩ := first
    rw [memberNodes, ih, List.map_cons]

end Value

namespace Build

/-- A value takes its place in a list that is open. -/
theorem settle_list (node : Node) (done : List Node) (stack : List Frame) :
    settle node (.list done :: stack) = afterItem (node :: done) stack :=
  -- The innermost frame is that of the list.
  rfl

/-- A value takes its place in an object that is open. -/
theorem settle_member (node : Node) (done : List (Quoted × Node)) (key : Quoted)
    (stack : List Frame) :
    settle node (.member done key :: stack) = afterMember ((key, node) :: done) stack :=
  -- The innermost frame waits for the value of its key.
  rfl

/-- The tokens of a value do not close a list that has just been opened. -/
theorem foldl_firstItem (v : Value) (stack : List Frame) :
    v.tokens.foldl shift (firstItem stack) = v.tokens.foldl shift (value (.list [] :: stack)) := by
  -- Only the first token matters, and it begins a value on both sides.
  cases v with
  | null => rfl
  | bool b => cases b <;> rfl
  | string s => rfl
  | list items => cases items <;> rfl
  | object members => cases members <;> rfl

mutual

/-- The tokens of a value give its node, which takes its place. -/
theorem foldl_tokens (v : Value) (stack : List Frame) :
    v.tokens.foldl shift (value stack) = settle v.node stack := by
  -- The induction follows the tokens. The stack is any, since what a container holds is built on
  -- top of what is open around it.
  cases v with
  | null => rfl
  | bool b => cases b <;> rfl
  | string s => rfl
  | list items =>
    cases items with
    | nil => rfl
    | cons first rest =>
      have opened : shift (value stack) .listOpen = firstItem stack := rfl
      simp only [Value.tokens, List.cons_append, List.foldl_cons, List.foldl_append, opened,
        foldl_firstItem, foldl_tokens first, settle_list, foldl_itemTokens rest]
      simp [shift, Value.node, Value.itemNodes]
  | object members =>
    cases members with
    | nil => rfl
    | cons first rest =>
      obtain ⟨key, held⟩ := first
      have keyed : shift (shift (shift (value stack) .objectOpen) (.quoted (.of key))) .colon =
          value (.member [] (.of key) :: stack) := rfl
      simp only [Value.tokens, List.cons_append, List.foldl_cons, List.foldl_append, keyed,
        foldl_tokens held, settle_member, foldl_memberTokens rest]
      simp [shift, Value.node, Value.memberNodes]

/-- The tokens of further items give their nodes, in the list that is open. -/
theorem foldl_itemTokens (items : List Value) (done : List Node) (stack : List Frame) :
    (Value.itemTokens items).foldl shift (afterItem done stack) =
      afterItem ((Value.itemNodes items).reverse ++ done) stack := by
  cases items with
  | nil => rfl
  | cons first rest =>
    -- After a comma the list waits for a value again.
    have comma : shift (afterItem done stack) .comma = value (.list done :: stack) := rfl
    simp only [Value.itemTokens, List.cons_append, List.foldl_cons, List.foldl_append, comma,
      foldl_tokens first, settle_list, foldl_itemTokens rest]
    simp [Value.itemNodes]

/-- The tokens of further members give their nodes, in the object that is open. -/
theorem foldl_memberTokens (members : List (String × Value)) (done : List (Quoted × Node))
    (stack : List Frame) : (Value.memberTokens members).foldl shift (afterMember done stack) =
      afterMember ((Value.memberNodes members).reverse ++ done) stack := by
  cases members with
  | nil => rfl
  | cons first rest =>
    obtain ⟨key, held⟩ := first
    -- After a comma, a key and a colon the object waits for a value again.
    have keyed : shift (shift (shift (afterMember done stack) .comma) (.quoted (.of key))) .colon =
        value (.member done (.of key) :: stack) := rfl
    simp only [Value.memberTokens, List.cons_append, List.foldl_cons, List.foldl_append, keyed,
      foldl_tokens held, settle_member, foldl_memberTokens rest]
    simp [Value.memberNodes]

end

end Build

/-- A written value is the document of its node, with nothing but blanks behind it. -/
theorem Document.ofText_write {layout : Layout} (plain : layout.Plain) (v : Value)
    {blanks : List Char} (all : ∀ c ∈ blanks, isBlank c = true) :
    Document.ofText (v.write layout 0 ++ blanks) = ⟨v.node, false⟩ := by
  -- The tokens of the text are those of the value, and building from these ends with its node.
  rw [ofText, tokens_write plain v all, Build.foldl_tokens]
  rfl

end BuildGraph.Json
