import Mathlib.Data.List.Lex
import Mathlib.Data.String.Basic
import Mathlib.Tactic.SplitIfs

/-! Texts come in the order of the bytes that they are written with. -/

namespace BuildGraph

namespace Text

/-- The bytes of a text. -/
def bytes (text : String) : List UInt8 :=
  -- They are given as a list, which has a lexicographic order to compare with.
  text.toUTF8.data.toList

/-- The bytes of a text are those of its characters. -/
theorem bytes_eq (text : String) : bytes text = text.toList.flatMap String.utf8EncodeChar := by
  -- A text is encoded one character after another.
  rw [bytes, String.toUTF8, ← String.utf8Encode_toList, List.utf8Encode, List.data_toByteArray]

/-- The bytes of a smaller character come before those of a greater one, whatever follows. -/
theorem utf8EncodeChar_append_lt {a b : Char} (less : a < b) (x y : List UInt8) :
    String.utf8EncodeChar a ++ x < String.utf8EncodeChar b ++ y := by
  have less : a.val.toNat < b.val.toNat := less
  have bound : b.val.toNat < 0x110000 := by
    rcases b.valid with small | ⟨_, large⟩
    · change b.val.toNat < _ at small
      omega
    · exact large
  -- All bytes but the first carry six bits of the character, and the first tells how many follow.
  have sixes : ∀ n : Nat, n / 4096 = n / 64 / 64 ∧ n / 262144 = n / 64 / 64 / 64 := by omega
  simp only [String.utf8EncodeChar, sixes]
  generalize a.val.toNat = m at less ⊢
  generalize b.val.toNat = n at less bound ⊢
  split_ifs <;>
    simp only [List.cons_append, List.nil_append, List.cons_lt_cons_iff, UInt8.lt_iff_toNat_lt,
      UInt8.toNat_ofNat', ← UInt8.toNat_inj] <;>
    omega

/-- The bytes of a smaller text come before those of a greater one. -/
theorem bytes_lt {a b : String} (less : a < b) : bytes a < bytes b := by
  rw [bytes_eq, bytes_eq]
  -- The induction is on the characters up to where the texts differ.
  have less : a.toList < b.toList := less
  generalize a.toList = l at less ⊢
  generalize b.toList = m at less ⊢
  induction less with
  | @nil c rest =>
    simp only [List.flatMap_nil, List.flatMap_cons, String.utf8EncodeChar]
    split_ifs <;> exact .nil
  | rel first => exact utf8EncodeChar_append_lt first _ _
  | cons _ ih => exact List.append_left_lt ih

/-- Texts stand in the order of their bytes. -/
theorem bytes_lt_iff {a b : String} : bytes a < bytes b ↔ a < b := by
  refine ⟨fun less => ?_, bytes_lt⟩
  -- If `a` were not smaller, its bytes would be those of `b`, or come after them.
  rcases lt_trichotomy a b with smaller | rfl | greater
  · exact smaller
  · exact absurd less (List.lt_irrefl _)
  · exact absurd (bytes_lt greater) (List.lt_asymm less)

end Text

end BuildGraph
