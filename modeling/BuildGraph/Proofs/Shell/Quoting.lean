import BuildGraph.Proofs.Shell.Reader
import BuildGraph.Scheduling

/-! A quoted text is read by a shell as one word that has the characters of the text. -/

namespace BuildGraph.Shell

open Text

/-- The characters that a shell may take for more than themselves unless they are quoted: some of
them end words, and others are looked at once words have been read. -/
def specials : List Char :=
  -- More than one kind of shell is covered: braces and the exclamation mark mean nothing to a plain
  -- one.
  ['|', '&', ';', '<', '>', '(', ')', '$', '\x60', '\\', '"', '\'', ' ', '\t', '\n', '*', '?', '[',
    ']', '#', '~', '=', '%', '!', '^', '\x7b', '\x7d']

/-- A character that a shell may take for more than itself. -/
def isSpecial (c : Char) : Bool :=
  -- What is special is listed, and nothing else is.
  c ∈ specials

/-- The signs of the rest of a text that is quoted, with a quote already open or not. -/
def written (opened : Bool) : List Char → List Sign
  -- A single quote closes what was open, since it cannot stand between quotes.
  | [] => []
  | c :: rest =>
    if isPlain c then ⟨c, opened⟩ :: written opened rest
    else ⟨c, true⟩ :: written (c ≠ '\'') rest

/-- The mode of a reader, by whether a quote is open. -/
def modeOf (opened : Bool) : Mode :=
  -- Quoting uses single quotes only.
  if opened then .single else .bare

/-- No special character is plain. -/
theorem not_special_of_plain {c : Char} (plain : isPlain c = true) : isSpecial c = false := by
  -- The special characters are few, and each of them is looked at.
  have none : specials.any isPlain = false := by decide
  rw [isSpecial, decide_eq_false_iff_not]
  intro member
  exact absurd plain (List.any_eq_false.mp none c member)

/-- What is quoted has the characters of the text. -/
theorem map_char_written (opened : Bool) (cs : List Char) :
    (written opened cs).map Sign.char = cs := by
  -- Quoting decides how a character is signed, not which it is.
  fun_induction written opened cs <;> simp_all

/-- Only plain characters are written without quotes. -/
theorem plain_of_written {opened : Bool} {cs : List Char} {s : Sign}
    (member : s ∈ written opened cs) (bare : s.quoted = false) : isPlain s.char = true := by
  -- The cases are those of writing: no character, a plain one, and any other.
  fun_induction written opened cs with
  | case1 => cases member
  | case2 opened c rest plain ih =>
    rcases List.mem_cons.mp member with rfl | later
    · exact plain
    · exact ih later
  | case3 opened c rest special ih =>
    rcases List.mem_cons.mp member with rfl | later
    · cases bare
    · exact ih later

/-- A plain character is ordinary, since all others are special. -/
theorem ordinary_of_plain {c : Char} (plain : isPlain c = true) : isOrdinary c = true := by
  -- Whatever would give a character a part of its own is special.
  have simple := not_special_of_plain plain
  simp only [isSpecial, specials, List.mem_cons, List.not_mem_nil, or_false,
    decide_eq_false_iff_not, not_or] at simple
  simp [isOrdinary, startsExpansion, isBlank, startsOperator, simple]

/-- A plain character is taken as it is, and is quoted if a quote is open. -/
theorem move_plain {c : Char} (plain : isPlain c = true) (opened : Bool) :
    move (modeOf opened) c = .take [⟨c, opened⟩] (modeOf opened) := by
  -- Outside of quotes a plain character is ordinary, and inside it is anything but a quote.
  cases opened with
  | false => exact move_ordinary (ordinary_of_plain plain)
  | true =>
    have apart : c ≠ '\'' := by
      rintro rfl
      exact absurd plain (by decide)
    simp [modeOf, move, apart]

/-- Inside quotes, a character is taken as it is unless it is a quote. -/
theorem move_single {c : Char} (apart : c ≠ '\'') :
    move .single c = .take [⟨c, true⟩] .single := by
  -- The quote is the only character that means anything there.
  simp [move, apart]

/-- Reading the rest of a quoted text comes to its signs, and goes on behind it. -/
theorem readWord_quoteFrom (opened : Bool) (cs rest : List Char) :
    readWord (modeOf opened) (quoteFrom opened cs ++ rest) =
      prepend (written opened cs) (readWord .bare rest) := by
  -- The induction is on the characters; the mode tells whether a quote is open.
  induction cs generalizing opened with
  | nil =>
    cases opened with
    | false => exact (prepend_nil _).symm
    | true => rfl
  | cons c others ih =>
    have bare := ih false
    have single := ih true
    rw [quoteFrom, written]
    by_cases plain : isPlain c = true
    · -- A plain character leaves the mode as it is.
      rw [if_pos plain, if_pos plain, List.cons_append, readWord_take _ (move_plain plain opened),
        ih opened, prepend_prepend]
      rfl
    · rw [if_neg plain, if_neg plain]
      by_cases quote : c = '\''
      · -- A quote is read behind a backslash, outside of quotes.
        subst quote
        have escaped : readWord .bare ('\\' :: '\'' :: (quoteFrom false others ++ rest)) =
            prepend (⟨'\'', true⟩ :: written false others) (readWord .bare rest) := by
          rw [readWord_take _ rfl, prepend_nil, readWord_take _ rfl]
          exact (congrArg _ bare).trans (prepend_prepend _ _ _)
        cases opened with
        | false => exact escaped
        | true => exact (prepend_nil _).trans escaped
      · -- Anything else is read inside of quotes.
        have quoted : readWord .single (c :: (quoteFrom true others ++ rest)) =
            prepend (⟨c, true⟩ :: written true others) (readWord .bare rest) := by
          rw [readWord_take _ (move_single quote)]
          exact (congrArg _ single).trans (prepend_prepend _ _ _)
        rw [if_neg quote, decide_eq_true quote]
        cases opened with
        | false => exact (prepend_nil _).trans quoted
        | true => exact quoted

/-- The signs of a whole text that is quoted. -/
def signs (text : String) : List Sign :=
  -- At the beginning no quote is open.
  written false text.toList

/-- A quoted text is read to its end as part of a word, whatever follows. -/
theorem readWord_shellQuoted (text : String) (rest : List Char) :
    readWord .bare ((shellQuoted text).toList ++ rest) =
      prepend (signs text) (readWord .bare rest) := by
  rw [shellQuoted, signs]
  split
  · -- An empty text is a pair of quotes.
    rename_i empty
    subst empty
    exact (prepend_nil _).trans <| (prepend_nil _).trans (prepend_nil _).symm
  · rw [String.toList_ofList]
    exact readWord_quoteFrom false text.toList rest

/-- A quoted text starts a word. -/
theorem startsWord_shellQuoted (text : String) (rest : List Char) :
    StartsWord ((shellQuoted text).toList ++ rest) := by
  rw [shellQuoted]
  split
  · exact ⟨'\'', _, rfl, rfl, by decide, by decide⟩
  · rename_i filled
    rw [String.toList_ofList]
    cases shape : text.toList with
    | nil => exact absurd (String.toList_eq_nil_iff.mp shape) filled
    | cons c others =>
      rw [quoteFrom]
      -- The first character is plain, or stands behind a backslash or a quote.
      by_cases plain : isPlain c = true
      · rw [if_pos plain]
        have noComment : c ≠ '#' := by
          rintro rfl
          exact absurd plain (by decide)
        exact startsWord_ordinary (ordinary_of_plain plain) noComment _
      · rw [if_neg plain]
        by_cases quote : c = '\''
        · rw [if_pos quote]
          exact ⟨'\\', _, rfl, rfl, by decide, by decide⟩
        · rw [if_neg quote]
          exact ⟨'\'', _, rfl, rfl, by decide, by decide⟩

/-- A quoted text between blanks is one token. -/
theorem readToken_shellQuoted (text : String) (rest : List Char) :
    readToken (' ' :: ((shellQuoted text).toList ++ ' ' :: rest)) =
      some (.word (signs text), ' ' :: rest) :=
  -- A quoted text begins a word, is read as that to its end, and ends at the blank.
  (readToken_blank _).trans <|
    (startsWord_shellQuoted text _).readToken_eq (readWord_shellQuoted text _)

end BuildGraph.Shell
