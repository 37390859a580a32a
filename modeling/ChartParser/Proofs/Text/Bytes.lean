import Mathlib.Data.String.Basic

/-! # Texts in the order of their bytes

Texts are ordered by code points. The order of their UTF-8 bytes is the same, since a smaller code
point has smaller bytes at the first place where two characters differ.
-/

namespace ChartParser.Text

/-- The bytes of a text in UTF-8. -/
def bytes (s : String) : List UInt8 := s.toByteArray.data.toList

theorem bytes_eq_flatMap (s : String) : bytes s = s.toList.flatMap String.utf8EncodeChar := by
  rw [bytes, ← String.utf8Encode_toList, List.utf8Encode, List.data_toByteArray]

variable {x y : Nat} {rest more : List UInt8} {c d : Char}

theorem ofNat_cons_lt (hx : x < 256) (hy : y < 256) :
    UInt8.ofNat x :: rest < UInt8.ofNat y :: more ↔ x < y ∨ x = y ∧ rest < more := by
  rw [List.cons_lt_cons_iff, UInt8.lt_iff_toNat_lt, ← UInt8.toNat_inj]
  simp only [UInt8.toNat_ofNat', Nat.mod_eq_of_lt (show x < 2 ^ 8 from hx),
    Nat.mod_eq_of_lt (show y < 2 ^ 8 from hy)]

theorem utf8EncodeChar_append_lt (less : c < d) (rest more : List UInt8) :
    String.utf8EncodeChar c ++ rest < String.utf8EncodeChar d ++ more := by
  have less : c.val.toNat < d.val.toNat := less
  have last : d.val.toNat < 0x110000 := by
    rcases d.valid with low | ⟨-, high⟩
    · exact Nat.lt_trans low (by decide)
    · exact high
  unfold String.utf8EncodeChar
  generalize c.val.toNat = v at less
  generalize d.val.toNat = w at less last
  have digits (n : Nat) : n / 4096 = n / 64 / 64 ∧ n / 262144 = n / 64 / 64 / 64 := by omega
  -- With as many bytes for both, these are digits of `v` and `w`. With more bytes for the second
  -- one, its first byte is larger.
  simp only [digits]
  split_ifs <;> simp (disch := omega) only [List.cons_append, ofNat_cons_lt] <;> omega

theorem flatMap_utf8EncodeChar_lt {cs ds : List Char} (less : List.Lex (· < ·) cs ds) :
    cs.flatMap String.utf8EncodeChar < ds.flatMap String.utf8EncodeChar := by
  induction less with
  | @nil d ds =>
    cases first : String.utf8EncodeChar d with
    | nil => exact absurd first String.utf8EncodeChar_ne_nil
    | cons byte more =>
      rw [List.flatMap_nil, List.flatMap_cons, first]
      exact List.nil_lt_cons _ _
  | rel less => exact utf8EncodeChar_append_lt less _ _
  | cons _ ih => exact List.append_left_lt ih

/-- Texts are ordered as their bytes are. -/
theorem bytes_lt_iff {a b : String} : bytes a < bytes b ↔ a < b := by
  have bytes_lt {a b : String} (less : a < b) : bytes a < bytes b := by
    rw [bytes_eq_flatMap, bytes_eq_flatMap]
    exact flatMap_utf8EncodeChar_lt (List.lex_lt.mpr less)
  constructor
  · intro less
    rcases lt_trichotomy a b with before | rfl | after
    · exact before
    · exact absurd less (List.lt_irrefl _)
    · exact absurd less (List.lt_asymm (bytes_lt after))
  · exact bytes_lt

theorem compare_eq_lt_iff {a b : String} : compare a b = .lt ↔ bytes a < bytes b := by
  rw [bytes_lt_iff]
  exact compareOfLessAndEq_eq_lt

end ChartParser.Text
