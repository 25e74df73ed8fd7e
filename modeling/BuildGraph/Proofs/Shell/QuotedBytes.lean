import BuildGraph.Proofs.ByteOrder
import BuildGraph.Scheduling

/-! A text can be quoted byte by byte, which comes to the bytes of the quoted text. -/

namespace BuildGraph.Shell

open Text

/-- The quoted form of the rest of a text that is given as bytes. A byte is looked at as the
character of its number. -/
def quoteBytesFrom (opened : Bool) : List UInt8 → List UInt8
  -- Bytes of characters beyond ASCII stand for themselves, in quotes or out of them.
  | [] => if opened then [0x27] else []
  | b :: rest =>
    if isPlain (Char.ofNat b.toNat) then b :: quoteBytesFrom opened rest
    else if b = 0x27 then
      (if opened then [0x27] else []) ++ 0x5c :: 0x27 :: quoteBytesFrom false rest
    else (if opened then [] else [0x27]) ++ b :: quoteBytesFrom true rest

/-- A text as one word of a shell, made byte by byte. -/
def quotedBytes (text : String) : List UInt8 :=
  -- The empty text needs its quotes to be a word.
  if bytes text = [] then [0x27, 0x27] else quoteBytesFrom false (bytes text)

/-- Plain bytes are written as they are. -/
theorem quoteBytesFrom_append {front : List UInt8}
    (plain : ∀ b ∈ front, isPlain (Char.ofNat b.toNat) = true) (opened : Bool) (rest : List UInt8) :
    quoteBytesFrom opened (front ++ rest) = front ++ quoteBytesFrom opened rest := by
  -- The induction is on the plain bytes, each of which is passed over.
  induction front with
  | nil => rfl
  | cons b others ih =>
    obtain ⟨first, later⟩ := List.forall_mem_cons.mp plain
    rw [List.cons_append, quoteBytesFrom, if_pos first, ih later]
    rfl

/-- An ASCII character is one byte. -/
theorem utf8EncodeChar_ascii {c : Char} (small : c.toNat < 0x80) :
    String.utf8EncodeChar c = [UInt8.ofNat c.toNat] := by
  -- The shortest form of an encoding has one byte.
  have small : c.val.toNat ≤ 0x7f := Nat.le_of_lt_succ small
  rw [String.utf8EncodeChar, if_pos small]
  rfl

/-- No byte of another character is one of an ASCII character. -/
theorem large_of_mem_utf8EncodeChar {c : Char} (large : 0x80 ≤ c.toNat) {b : UInt8}
    (member : b ∈ String.utf8EncodeChar c) : 0x80 ≤ b.toNat := by
  -- In each of the longer forms, every byte has its highest bit set.
  have large : ¬ c.val.toNat ≤ 0x7f := Nat.not_le_of_lt large
  simp only [String.utf8EncodeChar, if_neg large] at member
  split_ifs at member <;>
    simp only [List.mem_cons, List.not_mem_nil, or_false] at member <;>
    rcases member with rfl | rfl | rfl | rfl <;>
    rw [UInt8.toNat_ofNat'] <;>
    omega

/-- All bytes but those of ASCII characters are plain. -/
theorem isPlain_of_large {b : UInt8} (large : 0x80 ≤ b.toNat) :
    isPlain (Char.ofNat b.toNat) = true := by
  -- A byte is a character as it is, and all characters beyond ASCII are plain.
  have valid : b.toNat.isValidChar := .inl (by have := b.toNat_lt; omega)
  have number : (Char.ofNat b.toNat).toNat = b.toNat := by
    rw [Char.ofNat, dif_pos valid]
    exact UInt32.toNat_ofNatLT
  simp [isPlain, number, large]

/-- A text is quoted byte by byte as it is character by character. -/
theorem quoteBytesFrom_flatMap (opened : Bool) (cs : List Char) :
    quoteBytesFrom opened (cs.flatMap String.utf8EncodeChar) =
      (quoteFrom opened cs).flatMap String.utf8EncodeChar := by
  -- The induction is on the characters; both sides open and close quotes at the same places.
  induction cs generalizing opened with
  | nil => cases opened <;> rfl
  | cons c others ih =>
    rw [List.flatMap_cons, quoteFrom]
    by_cases large : 0x80 ≤ c.toNat
    · -- All bytes of the character are plain, as it is itself.
      have plain : isPlain c = true := by simp [isPlain, large]
      rw [if_pos plain, List.flatMap_cons, ← ih opened]
      exact quoteBytesFrom_append (fun b member =>
        isPlain_of_large (large_of_mem_utf8EncodeChar large member)) opened _
    · have small := utf8EncodeChar_ascii (Nat.lt_of_not_le large)
      have number : Char.ofNat (UInt8.ofNat c.toNat).toNat = c := by
        rw [UInt8.toNat_ofNat', Nat.mod_eq_of_lt (by omega), Char.ofNat_toNat]
      rw [small, List.singleton_append, quoteBytesFrom, number]
      by_cases plain : isPlain c = true
      · rw [if_pos plain, if_pos plain, List.flatMap_cons, small, ih opened]
        rfl
      · rw [if_neg plain, if_neg plain]
        by_cases quote : c = '\''
        · subst quote
          have same : UInt8.ofNat '\''.toNat = 0x27 := rfl
          rw [if_pos same, if_pos rfl, ih false]
          cases opened <;> rfl
        · -- No other character has the byte of a quote.
          have apart : UInt8.ofNat c.toNat ≠ 0x27 := by
            intro same
            rw [same] at number
            exact quote number.symm
          rw [if_neg apart, if_neg quote, ih true]
          simp only [List.flatMap_append, List.flatMap_cons, small]
          cases opened <;> rfl

/-- The bytes of a quoted text are those of the text, quoted one by one. -/
theorem quotedBytes_eq (text : String) : quotedBytes text = bytes (shellQuoted text) := by
  rw [quotedBytes, shellQuoted, bytes_eq, bytes_eq]
  by_cases empty : text = ""
  · subst empty
    rfl
  · -- Every character has a byte.
    obtain ⟨c, member⟩ := List.exists_mem_of_ne_nil _ (mt String.toList_eq_nil_iff.mp empty)
    have filled : text.toList.flatMap String.utf8EncodeChar ≠ [] := fun none =>
      String.utf8EncodeChar_ne_nil (List.flatMap_eq_nil_iff.mp none c member)
    rw [if_neg filled, if_neg empty, String.toList_ofList]
    exact quoteBytesFrom_flatMap false text.toList

/-- The bytes of a quoted text always make up a text, so that nothing has to stand in for it. -/
theorem fromUTF8?_quotedBytes (text : String) :
    String.fromUTF8? (quotedBytes text).toByteArray = some (shellQuoted text) := by
  -- The bytes are those of the text that is quoted character by character.
  have same : (quotedBytes text).toByteArray = (shellQuoted text).toByteArray := by
    rw [quotedBytes_eq, ByteArray.ext_iff, List.data_toByteArray, bytes, Array.toArray_toList]
    rfl
  rw [same, String.fromUTF8?, dif_pos (shellQuoted text).isValidUTF8]
  rfl

end BuildGraph.Shell
