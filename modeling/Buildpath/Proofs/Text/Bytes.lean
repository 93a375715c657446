import Mathlib.Data.String.Basic
import Mathlib.Tactic.SplitIfs

/-! The order of texts by their bytes. Texts are compared by their characters, and of two characters
the one with the lower number has the lower bytes: where they take equally many, by the digits of the
numbers, and else by the first byte, which tells how many there are. So both orders are one. -/
namespace Buildpath.Text

def bytes (text : String) : List UInt8 := text.toUTF8.data.toList

theorem bytes_eq (text : String) : bytes text = text.toList.flatMap String.utf8EncodeChar := by
  rw [bytes, String.toUTF8_eq_toByteArray, ← String.utf8Encode_toList, List.utf8Encode,
    List.toList_data_toByteArray]

section
variable {m n : Nat}

theorem byte_lt_iff (hm : m < 256) (hn : n < 256) : UInt8.ofNat m < UInt8.ofNat n ↔ m < n := by
  rw [UInt8.lt_iff_toNat_lt, UInt8.toNat_ofNat_of_lt' hm, UInt8.toNat_ofNat_of_lt' hn]

theorem byte_eq_iff (hm : m < 256) (hn : n < 256) : UInt8.ofNat m = UInt8.ofNat n ↔ m = n := by
  rw [← UInt8.toNat_inj, UInt8.toNat_ofNat_of_lt' hm, UInt8.toNat_ofNat_of_lt' hn]

end

/-- Of two characters the lower one decides, whatever is written behind them. -/
theorem utf8EncodeChar_lt {c d : Char} (lt : c < d) (left right : List UInt8) :
    String.utf8EncodeChar c ++ left < String.utf8EncodeChar d ++ right := by
  have numbers : c.val.toNat < d.val.toNat := lt
  have bound : d.val.toNat < 1114112 := by
    rcases d.valid with low | high <;> omega
  have digits (n : Nat) : n / 4096 = n / 64 / 64 ∧ n / 262144 = n / 64 / 64 / 64 := by omega
  unfold String.utf8EncodeChar
  generalize c.val.toNat = m at numbers
  generalize d.val.toNat = n at numbers bound
  simp only [digits]
  split_ifs <;>
    simp (disch := omega) only [List.cons_append, List.nil_append, List.cons_lt_cons_iff, byte_lt_iff,
      byte_eq_iff] <;>
    omega

theorem utf8EncodeChar_ne_nil (c : Char) : String.utf8EncodeChar c ≠ [] := by
  have size := String.length_utf8EncodeChar c
  have positive := c.utf8Size_pos
  intro none
  rw [none, List.length_nil] at size
  omega

theorem flatMap_utf8EncodeChar_lt {left right : List Char} (lt : left < right) :
    left.flatMap String.utf8EncodeChar < right.flatMap String.utf8EncodeChar := by
  induction left generalizing right with
  | nil =>
    cases right with
    | nil => exact absurd lt (List.lt_irrefl [])
    | cons d right =>
      obtain ⟨byte, others, eq⟩ := List.exists_cons_of_ne_nil (utf8EncodeChar_ne_nil d)
      rw [List.flatMap_cons, eq]
      exact List.nil_lt_cons _ _
  | cons c left ih =>
    cases right with
    | nil => exact absurd lt (List.not_lt_nil _)
    | cons d right =>
      rw [List.flatMap_cons, List.flatMap_cons]
      rcases List.cons_lt_cons_iff.mp lt with lower | ⟨rfl, behind⟩
      · exact utf8EncodeChar_lt lower _ _
      · exact List.append_left_lt (ih behind)

theorem bytes_lt {left right : String} (lt : left < right) : bytes left < bytes right := by
  rw [bytes_eq, bytes_eq]
  exact flatMap_utf8EncodeChar_lt (String.lt_iff_toList_lt.mp lt)

/-- A text stands before another in the order of bytes exactly if it does in that of characters. -/
theorem bytes_lt_iff {left right : String} : bytes left < bytes right ↔ left < right := by
  constructor
  · intro lower
    rcases lt_trichotomy left right with before | rfl | behind
    · exact before
    · exact absurd lower (List.lt_irrefl _)
    · exact absurd lower (List.lt_asymm (bytes_lt behind))
  · exact bytes_lt

theorem bytes_le_iff {left right : String} : bytes left ≤ bytes right ↔ left ≤ right := by
  rw [← List.not_lt, ← String.not_lt, bytes_lt_iff]

end Buildpath.Text
