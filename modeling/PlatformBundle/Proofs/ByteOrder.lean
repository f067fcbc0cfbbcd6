import Mathlib.Data.Char
import Mathlib.Data.String.Basic
import Mathlib.Tactic.SplitIfs
/-!
The order of texts is the order of their UTF-8 bytes. The first byte of a character grows with the
length of its encoding, and of two encodings of one length the bytes compare like the characters;
so the first character in which two texts differ decides both orders.
-/

namespace PlatformBundle.Text

def utf8 (text : String) : List UInt8 := text.toUTF8.data.toList

theorem utf8_eq_flatMap (text : String) :
    utf8 text = text.toList.flatMap String.utf8EncodeChar := by
  have encoded : text.toUTF8 = (text.toList.flatMap String.utf8EncodeChar).toByteArray :=
    String.utf8Encode_toList.symm
  rw [utf8, encoded, List.toList_data_toByteArray]

/-- Numbers compare like their digits to the base 64, which are the bits that a byte carries. -/
theorem lt_iff_digits (first second : Nat) : first < second ↔
    first / 262144 < second / 262144 ∨ first / 262144 = second / 262144 ∧
      (first / 4096 % 64 < second / 4096 % 64 ∨ first / 4096 % 64 = second / 4096 % 64 ∧
        (first / 64 % 64 < second / 64 % 64 ∨ first / 64 % 64 = second / 64 % 64 ∧
          first % 64 < second % 64)) := by
  have step (a b : Nat) : a < b ↔ a / 64 < b / 64 ∨ a / 64 = b / 64 ∧ a % 64 < b % 64 := by omega
  rw [step first second, step (first / 64), step (first / 64 / 64)]
  simp only [Nat.div_div_eq_div_mul, Nat.reduceMul]
  omega

theorem encode_lt {c d : Char} (below : c < d) (left right : List UInt8) :
    String.utf8EncodeChar c ++ left < String.utf8EncodeChar d ++ right := by
  have less : c.val.toNat < d.val.toNat := below
  have small : d.val.toNat < 0x110000 := by
    have valid := d.valid
    simp only [UInt32.isValidChar, Nat.isValidChar] at valid
    omega
  simp only [String.utf8EncodeChar]
  generalize c.val.toNat = first at less ⊢
  generalize d.val.toNat = second at less small ⊢
  have digits := (lt_iff_digits first second).mp less
  -- One case for each pair of lengths; in those of equal lengths the digits are what is compared.
  split_ifs <;>
    simp (disch := omega) only [List.cons_append, List.nil_append, List.cons_lt_cons_iff,
      UInt8.lt_iff_toNat_lt, ← UInt8.toNat_inj, UInt8.toNat_ofNat', Nat.reducePow,
      Nat.mod_eq_of_lt] <;>
    omega

theorem encodings_lt {first second : List Char} (below : first < second) :
    first.flatMap String.utf8EncodeChar < second.flatMap String.utf8EncodeChar := by
  induction first generalizing second with
  | nil =>
      cases second with
      | nil => exact absurd below (List.lt_irrefl [])
      | cons d others =>
          obtain ⟨b, bytes, encoded⟩ :=
            List.exists_cons_of_ne_nil (String.utf8EncodeChar_ne_nil (c := d))
          rw [List.flatMap_cons, encoded]
          exact List.nil_lt_cons b _
  | cons c rest ih =>
      cases second with
      | nil => exact absurd below (List.not_lt_nil _)
      | cons d others =>
          rw [List.flatMap_cons, List.flatMap_cons]
          rcases List.cons_lt_cons_iff.mp below with less | ⟨rfl, later⟩
          · exact encode_lt less _ _
          · exact List.append_left_lt (ih later)

theorem utf8_lt_iff (first second : String) : utf8 first < utf8 second ↔ first < second := by
  have rises {a b : String} (below : a < b) : utf8 a < utf8 b := by
    rw [utf8_eq_flatMap, utf8_eq_flatMap]
    exact encodings_lt (String.lt_iff_toList_lt.mp below)
  refine ⟨fun below => ?_, rises⟩
  rcases lt_trichotomy first second with less | rfl | more
  · exact less
  · exact absurd below (List.lt_irrefl _)
  · exact absurd below (List.lt_asymm (rises more))

end PlatformBundle.Text
