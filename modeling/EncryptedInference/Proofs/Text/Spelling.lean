import EncryptedInference.Setting
import Mathlib.Data.List.TakeWhile

/-!
# Spellings

What a text has to look like in order to be read as one of the words of a setting.  A text spells a
word if it is the word in whatever case of its ASCII letters, with white space around it
(`Text.Spells`); the form in which it is compared with the words is just the word that it spells
(`Text.fold_eq_iff`).
-/

namespace EncryptedInference

namespace Text

/-- The text is the word, in whatever case of its ASCII letters, with white space around it. -/
def Spells (text word : String) : Prop :=
  ∃ before letters after : List Char, text.toList = before ++ letters ++ after ∧
    (∀ c ∈ before, isBlank c = true) ∧ (∀ c ∈ after, isBlank c = true) ∧
    letters.map Char.toLower = word.toList

/-! ## White space at the ends -/

/-- Trimming takes nothing but white space away. -/
theorem exists_toList_eq_trim (text : String) : ∃ before after : List Char,
    text.toList = before ++ (trim text).toList ++ after ∧
      (∀ c ∈ before, isBlank c = true) ∧ ∀ c ∈ after, isBlank c = true := by
  let rest := text.toList.dropWhile isBlank
  refine ⟨text.toList.takeWhile isBlank, (rest.reverse.takeWhile isBlank).reverse, ?_, ?_, ?_⟩
  · rw [trim, String.toList_ofList, List.append_assoc, ← List.reverse_append,
      List.takeWhile_append_dropWhile, List.reverse_reverse, List.takeWhile_append_dropWhile]
  · intro c hc
    exact List.mem_takeWhile_imp hc
  · intro c hc
    exact List.mem_takeWhile_imp (List.mem_reverse.1 hc)

theorem dropWhile_of_not_blank {cs : List Char} (h : ∀ c ∈ cs, isBlank c = false) :
    cs.dropWhile isBlank = cs := by
  rw [List.dropWhile_eq_self_iff]
  intro hlength
  rw [h _ (List.getElem_mem hlength)]
  exact Bool.false_ne_true

/-- Trimming takes away all the white space around letters. -/
theorem trim_eq_of_toList {text : String} {before letters after : List Char}
    (htext : text.toList = before ++ letters ++ after)
    (hbefore : ∀ c ∈ before, isBlank c = true) (hafter : ∀ c ∈ after, isBlank c = true)
    (hletters : ∀ c ∈ letters, isBlank c = false) : trim text = String.ofList letters := by
  have hstart : text.toList.dropWhile isBlank = (letters ++ after).dropWhile isBlank := by
    rw [htext, List.append_assoc, List.dropWhile_append_of_pos hbefore]
  rw [trim, hstart]
  cases letters with
  | nil =>
    rw [List.nil_append, List.dropWhile_eq_nil_iff.2 hafter]
    rfl
  | cons c cs =>
    have hhead : isBlank c = false := hletters c List.mem_cons_self
    have hend : ∀ d ∈ after.reverse, isBlank d = true := fun d hd =>
      hafter d (List.mem_reverse.1 hd)
    have hback : ∀ d ∈ (c :: cs).reverse, isBlank d = false := fun d hd =>
      hletters d (List.mem_reverse.1 hd)
    rw [List.cons_append, List.dropWhile_cons_of_neg (by simp [hhead]), ← List.cons_append,
      List.reverse_append, List.dropWhile_append_of_pos hend, dropWhile_of_not_blank hback,
      List.reverse_reverse]

/-- Nothing is left of a text that is all white space, and of no other one. -/
theorem all_isBlank_iff {text : String} :
    text.toList.all isBlank = true ↔ trim text = "" := by
  rw [List.all_eq_true]
  constructor
  · intro h
    have htext : text.toList = text.toList ++ [] ++ [] := by simp
    exact trim_eq_of_toList htext h (by simp) (by simp)
  · intro h
    obtain ⟨before, after, htext, hbefore, hafter⟩ := exists_toList_eq_trim text
    rw [h, String.toList_empty, List.append_nil] at htext
    rw [htext]
    exact fun c hc => (List.mem_append.1 hc).elim (hbefore c) (hafter c)

/-! ## Case -/

/-- White space has no case. -/
theorem toLower_of_isBlank {c : Char} (h : isBlank c = true) : c.toLower = c := by
  unfold Char.toLower
  rw [dif_neg]
  rintro ⟨hlow, hhigh⟩
  have hlow : 65 ≤ c.toNat := hlow
  have hhigh : c.toNat ≤ 90 := hhigh
  simp [isBlank, blankRanges] at h
  omega

/-- A text is compared as the word that it spells. -/
theorem fold_eq_iff {text word : String} (hword : ∀ c ∈ word.toList, isBlank c = false) :
    fold text = word ↔ Spells text word := by
  constructor
  · rintro rfl
    obtain ⟨before, after, htext, hbefore, hafter⟩ := exists_toList_eq_trim text
    exact ⟨before, _, after, htext, hbefore, hafter, by rw [fold, lowerAscii, String.toList_ofList]⟩
  · rintro ⟨before, letters, after, htext, hbefore, hafter, hcase⟩
    have hletters : ∀ c ∈ letters, isBlank c = false := by
      intro c hc
      by_contra hblank
      rw [Bool.not_eq_false] at hblank
      have hmem : c.toLower ∈ word.toList := hcase ▸ List.mem_map_of_mem hc
      rw [toLower_of_isBlank hblank] at hmem
      rw [hword c hmem] at hblank
      cases hblank
    rw [fold, lowerAscii, trim_eq_of_toList htext hbefore hafter hletters, String.toList_ofList,
      hcase, String.ofList_toList]

end Text

end EncryptedInference
