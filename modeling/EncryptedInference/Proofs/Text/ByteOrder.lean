import EncryptedInference.Files
import Mathlib.Data.String.Basic

/-!
# The order of bytes

Texts are compared character by character, and so names are listed in a map.  The bytes that encode
them compare in the same way (`Text.bytesOfText_lt_iff`): a character with a greater number has the
greater byte at the first place where the two differ, whatever follows
(`Text.utf8EncodeChar_append_lt`).
-/

namespace EncryptedInference.Text

/-- The bytes of a character come before those of a later one, whatever follows them. -/
theorem utf8EncodeChar_append_lt {c d : Char} (h : c < d) (s t : List UInt8) :
    String.utf8EncodeChar c ++ s < String.utf8EncodeChar d ++ t := by
  have hval : c.val.toNat < d.val.toNat := h
  have hd : d.val.toNat < 0x110000 := by
    rcases d.valid with hlow | ⟨-, hhigh⟩
    · exact Nat.lt_trans hlow (by decide)
    · exact hhigh
  unfold String.utf8EncodeChar
  generalize c.val.toNat = m at *
  generalize d.val.toNat = n at *
  dsimp only
  -- One goal for each pair of lengths: the first bytes tell different lengths apart, and equal
  -- lengths are compared digit by digit to the base 64.
  split_ifs <;>
    simp only [List.cons_append, List.nil_append, List.cons_lt_cons_iff, UInt8.lt_iff_toNat_lt,
      ← UInt8.toNat_inj, UInt8.toNat_ofNat', Nat.reducePow]
  all_goals
    simp (disch := omega) only [Nat.mod_eq_of_lt]
    omega

theorem flatMap_utf8EncodeChar_lt {cs ds : List Char} (h : cs < ds) :
    cs.flatMap String.utf8EncodeChar < ds.flatMap String.utf8EncodeChar := by
  induction h with
  | @nil d ds =>
    rw [List.flatMap_nil, List.flatMap_cons]
    cases hd : String.utf8EncodeChar d with
    | nil => exact absurd hd String.utf8EncodeChar_ne_nil
    | cons byte bytes => exact List.nil_lt_cons byte _
  | cons _ ih =>
    rw [List.flatMap_cons, List.flatMap_cons]
    exact List.append_left_lt ih
  | rel hlt =>
    rw [List.flatMap_cons, List.flatMap_cons]
    exact utf8EncodeChar_append_lt hlt _ _

theorem bytesOfText_eq (s : String) : bytesOfText s = s.toList.flatMap String.utf8EncodeChar := by
  have hbytes : s.toUTF8 = s.toList.utf8Encode := by
    rw [String.toUTF8, ← String.toByteArray_ofList, String.ofList_toList]
  rw [bytesOfText, hbytes, List.utf8Encode]
  simp

/-- Texts are ordered as the bytes that encode them. -/
theorem bytesOfText_lt_iff {s t : String} : bytesOfText s < bytesOfText t ↔ s < t := by
  have hmono : ∀ {s t : String}, s < t → bytesOfText s < bytesOfText t := by
    intro s t h
    rw [bytesOfText_eq, bytesOfText_eq]
    exact flatMap_utf8EncodeChar_lt (String.lt_iff_toList_lt.1 h)
  constructor
  · intro h
    rcases lt_trichotomy s t with hlt | rfl | hgt
    · exact hlt
    · exact absurd h (List.lt_irrefl _)
    · exact absurd h (List.lt_asymm (hmono hgt))
  · exact hmono

end EncryptedInference.Text
