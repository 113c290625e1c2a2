import EncryptedInference.Json.Printer
import EncryptedInference.Json.Reader
import Mathlib.Tactic.SplitIfs

/-!
# Numbers in documents

A number that is properly written (`Written.IsProper`) is read back as it stands: `number_append`.
The numbers that are ever printed, whole ones and finite doubles, are properly written.
-/

namespace EncryptedInference

/-! ## Digits -/

theorem head?_toDigits_append (n : Nat) (l : List Char) :
    (Nat.toDigits 10 n ++ l).head? = (Nat.toDigits 10 n).head? := by
  cases h : Nat.toDigits 10 n with
  | nil => exact absurd h Nat.toDigits_ne_nil
  | cons c cs => rfl

theorem head?_toDigits_ne_zero {n : Nat} (h : n ≠ 0) : (Nat.toDigits 10 n).head? ≠ some '0' := by
  induction n using Nat.strongRecOn with
  | ind n ih =>
    by_cases hn : n < 10
    · rw [Nat.toDigits_of_lt_base hn]
      simpa using h
    · rw [Nat.toDigits_of_base_le (by omega) (by omega), head?_toDigits_append]
      exact ih (n / 10) (by omega) (by omega)

theorem isDigit_of_mem_toDigits {n : Nat} {c : Char} (h : c ∈ Nat.toDigits 10 n) :
    c.isDigit = true :=
  Nat.isDigit_of_mem_toDigits (by omega) (by omega) h

theorem isDigit_of_mem_replicate {n : Nat} {c : Char} (h : c ∈ List.replicate n '0') :
    c.isDigit = true := by
  rw [(List.mem_replicate.1 h).2]
  rfl

/-! ## Proper numbers -/

/-- Digits are digits, and a whole part of several of them does not begin with a zero. -/
structure Written.IsProper (w : Written) : Prop where
  whole_ne_nil : w.whole ≠ []
  whole_digits : ∀ c ∈ w.whole, c.isDigit = true
  whole_leading : w.whole.length = 1 ∨ w.whole.head? ≠ some '0'
  places_digits : ∀ c ∈ w.places, c.isDigit = true

theorem Written.isProper_ofNat (n : Nat) : (ofNat n).IsProper where
  whole_ne_nil := Nat.toDigits_ne_nil
  whole_digits _ hc := isDigit_of_mem_toDigits hc
  whole_leading := by
    by_cases h : n = 0
    · subst h
      exact Or.inl rfl
    · exact Or.inr (head?_toDigits_ne_zero h)
  places_digits _ hc := by cases hc

namespace DecimalStyle

theorem isProper_withPlaces (n places : Nat) :
    (withPlaces (Nat.toDigits 10 n) places).IsProper := by
  have hpos : 0 < (Nat.toDigits 10 n).length := Nat.length_toDigits_pos
  have hdigits : ∀ c ∈ List.replicate (places + 1 - (Nat.toDigits 10 n).length) '0' ++
      Nat.toDigits 10 n, c.isDigit = true := by
    intro c hc
    rcases List.mem_append.1 hc with hc | hc
    · exact isDigit_of_mem_replicate hc
    · exact isDigit_of_mem_toDigits hc
  have hlen : (withPlaces (Nat.toDigits 10 n) places).whole.length =
      max (Nat.toDigits 10 n).length (places + 1) - places := by
    simp only [withPlaces, List.length_take, List.length_append, List.length_replicate]
    omega
  have hwhole : 0 < (withPlaces (Nat.toDigits 10 n) places).whole.length := by
    rw [hlen]
    omega
  refine ⟨List.ne_nil_of_length_pos hwhole, fun c hc => hdigits c (List.mem_of_mem_take hc), ?_,
    fun c hc => hdigits c (List.mem_of_mem_drop hc)⟩
  by_cases hone : (Nat.toDigits 10 n).length ≤ places + 1
  · left
    rw [hlen]
    omega
  · right
    have hn : n ≠ 0 := by
      rintro rfl
      rw [Nat.toDigits_zero, List.length_singleton] at hone
      omega
    have hpad : places + 1 - (Nat.toDigits 10 n).length = 0 := by omega
    simp only [withPlaces, hpad, List.replicate_zero, List.nil_append]
    rw [List.head?_take, if_neg (by omega)]
    exact head?_toDigits_ne_zero hn

/-- A whole number with zeros behind its digits; zero itself takes none. -/
theorem isProper_padded {d : Decimal} (h : d.digits = 0 → d.exponent = 0) {places : List Char}
    (hplaces : ∀ c ∈ places, c.isDigit = true) :
    (Written.mk (Nat.toDigits 10 d.digits ++ List.replicate d.exponent.toNat '0') places
      none).IsProper := by
  have hwhole : ∀ c ∈ Nat.toDigits 10 d.digits ++ List.replicate d.exponent.toNat '0',
      c.isDigit = true := by
    intro c hc
    rcases List.mem_append.1 hc with hc | hc
    · exact isDigit_of_mem_toDigits hc
    · exact isDigit_of_mem_replicate hc
  refine ⟨by simp [Nat.toDigits_ne_nil], hwhole, ?_, hplaces⟩
  by_cases hzero : d.digits = 0
  · left
    simp [hzero, h hzero]
  · right
    rw [head?_toDigits_append]
    exact head?_toDigits_ne_zero hzero

/-- A decimal is laid out properly, except for a zero with another exponent than zero. -/
theorem isProper_layOut (style : DecimalStyle) {d : Decimal} (h : d.digits = 0 → d.exponent = 0) :
    (style.layOut d).IsProper := by
  unfold layOut
  dsimp only
  split_ifs
  · exact isProper_padded h (by simp)
  · exact isProper_padded h (by simp)
  · exact isProper_withPlaces _ _
  · have hpos : 0 < (Nat.toDigits 10 d.digits).length := Nat.length_toDigits_pos
    have hone : ((Nat.toDigits 10 d.digits).take 1).length = 1 := by
      rw [List.length_take]
      omega
    refine ⟨List.ne_nil_of_length_pos ?_,
      fun c hc => isDigit_of_mem_toDigits (List.mem_of_mem_take hc), Or.inl hone,
      fun c hc => isDigit_of_mem_toDigits (List.mem_of_mem_drop hc)⟩
    rw [hone]
    omega

end DecimalStyle

namespace Decimal

theorem digits_stripZeros_ne_zero (fuel : Nat) {d : Decimal} (h : d.digits ≠ 0) :
    (stripZeros fuel d).digits ≠ 0 := by
  induction fuel generalizing d with
  | zero => exact h
  | succ fuel ih =>
    unfold stripZeros
    split_ifs with hten
    · have hquotient : d.digits / 10 ≠ 0 := by omega
      exact ih hquotient
    · exact h

theorem exponent_normalize (d : Decimal) : d.normalize.digits = 0 → d.normalize.exponent = 0 := by
  unfold normalize
  split_ifs with h
  · exact fun _ => rfl
  · exact fun hzero => absurd hzero (digits_stripZeros_ne_zero _ h)

end Decimal

theorem Double.exponent_shortest (tie : Tie) (x : Double) :
    (x.shortest tie).digits = 0 → (x.shortest tie).exponent = 0 := by
  unfold shortest
  split_ifs
  · exact fun _ => rfl
  · exact Decimal.exponent_normalize _

/-! ## Reading -/

namespace Json.Reader

/-- What follows a number does not continue it. -/
def Stops (rest : List Char) : Prop :=
  ∀ c ∈ rest.head?, c.isDigit = false ∧ c ≠ '.' ∧ c ≠ 'e' ∧ c ≠ 'E'

theorem digits_append {ds rest : List Char} (hds : ∀ c ∈ ds, c.isDigit = true)
    (hrest : ∀ c ∈ rest.head?, c.isDigit = false) : digits (ds ++ rest) = (ds, rest) := by
  unfold digits
  rw [List.takeWhile_append_of_pos hds, List.dropWhile_append_of_pos hds]
  cases rest with
  | nil => simp
  | cons c rest => simp [hrest c rfl]

theorem fraction_append {places rest : List Char} (hplaces : ∀ c ∈ places, c.isDigit = true)
    (hdigit : ∀ c ∈ rest.head?, c.isDigit = false) (hpoint : ∀ c ∈ rest.head?, c ≠ '.') :
    fraction ((if places.isEmpty then [] else '.' :: places) ++ rest) = some (places, rest) := by
  cases places with
  | nil =>
    cases rest with
    | nil => rfl
    | cons c rest =>
      have hc : c ≠ '.' := hpoint c rfl
      unfold fraction
      split
      · rename_i heq
        exact absurd (List.cons.inj heq).1 hc
      · rfl
  | cons p places =>
    simp only [List.isEmpty_cons, Bool.false_eq_true, if_false, List.cons_append, fraction]
    rw [← List.cons_append, digits_append hplaces hdigit]
    rfl

theorem digitsValue_toDigits (n : Nat) : Text.digitsValue (Nat.toDigits 10 n) = n :=
  Nat.ofDigitChars_ten_toDigits

theorem exponent_append {rest : List Char} (power : Option Int) (hrest : Stops rest) :
    exponent (((power.map Written.powerText).getD "").toList ++ rest) = some (power, rest) := by
  cases power with
  | none =>
    show exponent rest = _
    cases rest with
    | nil => rfl
    | cons c rest =>
      obtain ⟨-, -, he, hE⟩ := hrest c rfl
      simp [exponent, he, hE]
  | some power =>
    have hdigits : digits (Nat.toDigits 10 power.natAbs ++ rest) =
        (Nat.toDigits 10 power.natAbs, rest) := by
      apply digits_append
      · intro c hc
        exact isDigit_of_mem_toDigits hc
      · intro c hc
        exact (hrest c hc).1
    have hne : (Nat.toDigits 10 power.natAbs).isEmpty = false := by
      simp [Nat.toDigits_ne_nil]
    have htext : (toString power.natAbs).toList = Nat.toDigits 10 power.natAbs := Nat.toList_repr
    simp only [Option.map_some, Option.getD_some, Written.powerText, String.toList_append, htext]
    obtain ⟨k, hk⟩ : ∃ k, power.natAbs = k := ⟨_, rfl⟩
    rw [hk] at hdigits hne ⊢
    split_ifs with hneg
    · obtain rfl : power = -(k : Int) := by omega
      simp [exponent, hdigits, hne, digitsValue_toDigits]
    · obtain rfl : power = (k : Int) := by omega
      simp [exponent, hdigits, hne, digitsValue_toDigits]

/-- An exponent begins with its mark, so it continues neither digits nor a point. -/
theorem head?_exponent {rest : List Char} (power : Option Int) (hrest : Stops rest) :
    ∀ c ∈ (((power.map Written.powerText).getD "").toList ++ rest).head?,
      c.isDigit = false ∧ c ≠ '.' := by
  cases power with
  | none => exact fun c hc => ⟨(hrest c hc).1, (hrest c hc).2.1⟩
  | some power =>
    intro c hc
    have hmark : c = 'e' := by
      simp only [Option.map_some, Option.getD_some, Written.powerText] at hc
      split_ifs at hc <;> simpa [eq_comm] using hc
    subst hmark
    exact ⟨rfl, by decide⟩

theorem head?_fraction {places tail : List Char} (htail : ∀ c ∈ tail.head?, c.isDigit = false) :
    ∀ c ∈ ((if places.isEmpty then [] else '.' :: places) ++ tail).head?, c.isDigit = false := by
  cases places with
  | nil => exact htail
  | cons p places =>
    intro c hc
    obtain rfl : '.' = c := Option.some.inj hc
    rfl

theorem unsigned_append (negative : Bool) {w : Written} (h : w.IsProper) {rest : List Char}
    (hrest : Stops rest) :
    unsigned negative (w.text.toList ++ rest) = some (⟨negative, w⟩, rest) := by
  obtain ⟨whole, places, power⟩ := w
  obtain ⟨hne, hwhole, hleading, hplaces⟩ := h
  dsimp only at hne hwhole hleading hplaces
  have htext : (Written.mk whole places power).text.toList ++ rest =
      whole ++ ((if places.isEmpty then [] else '.' :: places) ++
        (((power.map Written.powerText).getD "").toList ++ rest)) := by
    cases places <;> simp [Written.text]
  have htail := head?_exponent power hrest
  have hdigit : ∀ c ∈ (((power.map Written.powerText).getD "").toList ++ rest).head?,
      c.isDigit = false := fun c hc => (htail c hc).1
  have hpoint : ∀ c ∈ (((power.map Written.powerText).getD "").toList ++ rest).head?, c ≠ '.' :=
    fun c hc => (htail c hc).2
  have hdigits := digits_append hwhole (@head?_fraction places _ hdigit)
  have hproper : (!whole.isEmpty &&
      (decide (whole.length = 1) || decide (whole.head? ≠ some '0'))) = true := by
    simpa [hne] using hleading
  have hguard : (guard (!whole.isEmpty &&
      (decide (whole.length = 1) || decide (whole.head? ≠ some '0'))) : Option Unit) = some () :=
    if_pos hproper
  rw [htext, unsigned, hdigits]
  dsimp only
  rw [hguard]
  simp only [bind, Option.bind, pure, fraction_append hplaces hdigit hpoint,
    exponent_append power hrest]

theorem toList_numberText_negative (w : Written) :
    (numberText ⟨true, w⟩).toList = '-' :: w.text.toList := by
  simp [numberText, Double.signText]

theorem toList_numberText (w : Written) : (numberText ⟨false, w⟩).toList = w.text.toList := by
  simp [numberText, Double.signText]

theorem head_text {w : Written} (h : w.IsProper) :
    ∃ c cs, w.text.toList = c :: cs ∧ c.isDigit = true := by
  obtain ⟨c, cs, hwhole⟩ := List.exists_cons_of_ne_nil h.whole_ne_nil
  have hdigit : c.isDigit = true := by
    apply h.whole_digits
    rw [hwhole]
    exact List.mem_cons_self
  simp only [Written.text, hwhole, String.toList_append, String.toList_ofList, List.cons_append,
    List.append_assoc]
  exact ⟨c, _, rfl, hdigit⟩

theorem head_numberText {l : Literal} (h : l.written.IsProper) :
    ∃ c cs, (numberText l).toList = c :: cs ∧ (c = '-' ∨ c.isDigit = true) := by
  obtain ⟨negative, w⟩ := l
  cases negative with
  | true => exact ⟨'-', _, toList_numberText_negative w, Or.inl rfl⟩
  | false =>
    obtain ⟨c, cs, htext, hc⟩ := head_text h
    exact ⟨c, cs, (toList_numberText w).trans htext, Or.inr hc⟩

/-- A properly written number is read up to its end. -/
theorem number_append {l : Literal} (h : l.written.IsProper) {rest : List Char}
    (hrest : Stops rest) : number ((numberText l).toList ++ rest) = some (l, rest) := by
  obtain ⟨negative, w⟩ := l
  cases negative with
  | true =>
    rw [toList_numberText_negative]
    exact unsigned_append true h hrest
  | false =>
    have hread := unsigned_append false h hrest
    obtain ⟨c, cs, htext, hc⟩ := head_text h
    rw [htext, List.cons_append] at hread
    rw [toList_numberText, htext, List.cons_append]
    unfold number
    split
    · rename_i heq
      rw [(List.cons.inj heq).1] at hc
      cases hc
    · exact hread

end Json.Reader

end EncryptedInference
