import EncryptedInference.Double.Written
import EncryptedInference.Text.Numeral
import Mathlib.Algebra.Group.Nat.Defs
import Mathlib.Tactic.SplitIfs

/-!
# Nearest doubles

How large the double nearest to a quotient is: `Double.nearestMagnitude_le` bounds its magnitude by
the place of its last bit, so that quotients with at most a thousand bits are finite
(`Double.isFinite_ofRatio`).  A number of 64 bits in its digits stands for itself as a word
(`Written.word?_ofNat`) and for a finite double (`Written.isSome_toDouble?_ofNat`).  Whatever number
is written, it stands for a finite double or for none (`Written.isFinite_of_toDouble?`).
-/

namespace EncryptedInference

namespace Double

/-! ## The last place -/

theorem le_lastPlace (num den : Nat) : (num.log2 : Int) - den.log2 - 53 ≤ lastPlace num den := by
  unfold lastPlace
  dsimp only
  split_ifs <;> omega

theorem lastPlace_le {num den bits : Nat} (h : num.log2 ≤ bits + 52) :
    lastPlace num den ≤ bits := by
  unfold lastPlace
  dsimp only
  split_ifs <;> omega

theorem roundHalfEven_le (num den : Nat) : roundHalfEven num den ≤ num / den + 1 := by
  unfold roundHalfEven
  dsimp only
  split_ifs <;> omega

/-- The units of the last place fill at most 54 bits. -/
theorem units_lt {num den : Nat} (hden : den ≠ 0) {e : Int}
    (he : (num.log2 : Int) - den.log2 - 53 ≤ e) :
    (num <<< (-e).toNat) / (den <<< e.toNat) < 2 ^ 54 := by
  have hnum : num < 2 ^ (num.log2 + 1) := Nat.lt_log2_self
  have hlog : 2 ^ den.log2 ≤ den := Nat.log2_self_le hden
  rw [Nat.shiftLeft_eq, Nat.shiftLeft_eq]
  refine Nat.div_lt_of_lt_mul ?_
  calc num * 2 ^ (-e).toNat
      < 2 ^ (num.log2 + 1) * 2 ^ (-e).toNat := Nat.mul_lt_mul_of_pos_right hnum (Nat.two_pow_pos _)
    _ = 2 ^ (num.log2 + 1 + (-e).toNat) := (Nat.pow_add ..).symm
    _ ≤ 2 ^ (den.log2 + e.toNat + 54) := Nat.pow_le_pow_right (by omega) (by omega)
    _ = 2 ^ den.log2 * 2 ^ e.toNat * 2 ^ 54 := by rw [Nat.pow_add, Nat.pow_add]
    _ ≤ den * 2 ^ e.toNat * 2 ^ 54 :=
        Nat.mul_le_mul_right _ (Nat.mul_le_mul_right _ hlog)

theorem nearestMagnitude_le (num : Nat) {den : Nat} (hden : den ≠ 0) :
    nearestMagnitude num den ≤ ((lastPlace num den + 1074).toNat + 4) * 2 ^ 52 := by
  unfold nearestMagnitude
  split_ifs
  · exact Nat.zero_le _
  · have hunits := units_lt hden (le_lastPlace num den)
    have hround := roundHalfEven_le (num <<< (-lastPlace num den).toNat)
      (den <<< (lastPlace num den).toNat)
    dsimp only
    rw [Nat.shiftLeft_eq]
    omega

theorem magnitude_ofRatio_le (negative : Bool) (num : Nat) {den : Nat} (hden : den ≠ 0) :
    (ofRatio negative num den).magnitude.val ≤ ((lastPlace num den + 1074).toNat + 4) * 2 ^ 52 :=
  Nat.le_trans (Nat.mod_le _ _) (nearestMagnitude_le num hden)

theorem log2_le_of_lt {n bits : Nat} (h : n < 2 ^ (bits + 1)) : n.log2 ≤ bits := by
  by_cases hn : n = 0
  · simp [hn]
  · have hlog := (Nat.log2_lt hn).2 h
    omega

/-- A quotient with at most a thousand bits is nearest to a finite double. -/
theorem isFinite_ofRatio (negative : Bool) {num den : Nat} (hden : den ≠ 0)
    (hlog : num.log2 ≤ 999) : (ofRatio negative num den).isFinite = true := by
  have hplace : lastPlace num den ≤ (947 : Nat) := lastPlace_le (by omega)
  have hmagnitude := magnitude_ofRatio_le negative num hden
  apply decide_eq_true
  unfold infinityMagnitude
  omega

/-! ## Whole numbers -/

theorem significand_lt (x : Double) : x.significand < 2 ^ 53 := by
  unfold significand
  dsimp only
  split_ifs <;> omega

theorem denominator_ne_zero (x : Double) : x.denominator ≠ 0 := by
  rw [denominator, Nat.shiftLeft_eq]
  exact Nat.mul_ne_zero (by omega) (Nat.ne_of_gt (Nat.two_pow_pos _))

/-- The numerator of the nearest double is not much larger than that of the quotient. -/
theorem numerator_ofRatio_lt (negative : Bool) {num den bits : Nat} (hden : den ≠ 0)
    (h : num < 2 ^ (bits + 53)) : (ofRatio negative num den).numerator < 2 ^ (bits + 56) := by
  have hplace : lastPlace num den ≤ bits := lastPlace_le (log2_le_of_lt h)
  have hmagnitude := magnitude_ofRatio_le negative num hden
  have hexponent : (ofRatio negative num den).exponent.toNat ≤ bits + 3 := by
    unfold exponent
    omega
  calc (ofRatio negative num den).numerator
      = (ofRatio negative num den).significand * 2 ^ (ofRatio negative num den).exponent.toNat :=
        Nat.shiftLeft_eq ..
    _ ≤ (ofRatio negative num den).significand * 2 ^ (bits + 3) :=
        Nat.mul_le_mul_left _ (Nat.pow_le_pow_right (by omega) hexponent)
    _ < 2 ^ 53 * 2 ^ (bits + 3) :=
        Nat.mul_lt_mul_of_pos_right (significand_lt _) (Nat.two_pow_pos _)
    _ = 2 ^ (bits + 56) := by rw [← Nat.pow_add]; congr 1; omega

theorem numerator_ofNat_lt {n : Nat} (h : n < 2 ^ 64) : (ofNat n).numerator < 2 ^ 67 := by
  have hbits : n < 2 ^ (11 + 53) := h
  exact numerator_ofRatio_lt false Nat.one_ne_zero hbits

theorem isFinite_product_ofNat {m n : Nat} (hm : m < 2 ^ 64) (hn : n < 2 ^ 64) :
    ((ofNat m).product (ofNat n)).isFinite = true := by
  have hden := Nat.mul_ne_zero (denominator_ne_zero (ofNat m)) (denominator_ne_zero (ofNat n))
  have hnum : (ofNat m).numerator * (ofNat n).numerator < 2 ^ (133 + 1) := by
    calc (ofNat m).numerator * (ofNat n).numerator
        < 2 ^ 67 * 2 ^ 67 := Nat.mul_lt_mul'' (numerator_ofNat_lt hm) (numerator_ofNat_lt hn)
      _ = 2 ^ (133 + 1) := (Nat.pow_add 2 67 67).symm
  have hlog := log2_le_of_lt hnum
  exact isFinite_ofRatio _ hden (by omega)

/-! ## Powers of ten -/

/-- A power of ten that is divided by is not zero, and is a whole number over few bits. -/
theorem powerOfTen_bounds {k : Nat} (h : k ≤ Written.maxPower) :
    (powerOfTen k).numerator ≠ 0 ∧ (powerOfTen k).denominator ≤ 2 ^ 53 := by
  have hall : ∀ k < Written.maxPower + 1,
      (powerOfTen k).numerator ≠ 0 ∧ (powerOfTen k).denominator ≤ 2 ^ 53 := by
    decide +kernel
  exact hall k (Nat.lt_succ_of_le h)

theorem denominator_ratio_ne_zero (x : Double) {k : Nat} (hk : k ≤ Written.maxPower) :
    x.denominator * (powerOfTen k).numerator ≠ 0 :=
  Nat.mul_ne_zero (denominator_ne_zero x) (powerOfTen_bounds hk).1

section

variable {x : Double} {k bits : Nat} (hx : x.numerator < 2 ^ bits) (hk : k ≤ Written.maxPower)
include hx hk

theorem numerator_ratio_lt : x.numerator * (powerOfTen k).denominator < 2 ^ (bits + 53) := by
  calc x.numerator * (powerOfTen k).denominator
      ≤ x.numerator * 2 ^ 53 := Nat.mul_le_mul_left _ (powerOfTen_bounds hk).2
    _ < 2 ^ bits * 2 ^ 53 := Nat.mul_lt_mul_of_pos_right hx (Nat.two_pow_pos _)
    _ = 2 ^ (bits + 53) := (Nat.pow_add ..).symm

theorem numerator_ratio_powerOfTen_lt : (x.ratio (powerOfTen k)).numerator < 2 ^ (bits + 56) :=
  numerator_ofRatio_lt _ (denominator_ratio_ne_zero x hk) (numerator_ratio_lt hx hk)

theorem isFinite_ratio_powerOfTen (hbits : bits ≤ 900) :
    (x.ratio (powerOfTen k)).isFinite = true := by
  have hlog : (x.numerator * (powerOfTen k).denominator).log2 ≤ bits + 52 :=
    log2_le_of_lt (numerator_ratio_lt hx hk)
  exact isFinite_ofRatio _ (denominator_ratio_ne_zero x hk) (by omega)

end

end Double

namespace Written

theorem le_foldl_digits (n : Nat) (ds : List Char) :
    n ≤ ds.foldl (fun n d => 10 * n + (d.toNat - 48)) n := by
  induction ds generalizing n with
  | nil => exact Nat.le_refl _
  | cons d ds ih =>
    have hnext : n ≤ 10 * n + (d.toNat - 48) := by omega
    exact Nat.le_trans hnext (ih _)

/-- Digits that write a word are all taken. -/
theorem append_eq {n : Nat} {ds : List Char}
    (h : ds.foldl (fun n d => 10 * n + (d.toNat - 48)) n < wordLimit) :
    append n ds = (ds.foldl (fun n d => 10 * n + (d.toNat - 48)) n, []) := by
  induction ds generalizing n with
  | nil => rfl
  | cons d ds ih =>
    have hnext : 10 * n + (d.toNat - 48) < wordLimit := Nat.lt_of_le_of_lt (le_foldl_digits _ ds) h
    rw [append, if_pos hnext]
    exact ih h

theorem append_toDigits {n : Nat} (h : n < wordLimit) : append 0 (Nat.toDigits 10 n) = (n, []) := by
  have hvalue : (Nat.toDigits 10 n).foldl (fun n d => 10 * n + (d.toNat - 48)) 0 = n :=
    Nat.ofDigitChars_ten_toDigits
  rw [append_eq (by rwa [hvalue]), hvalue]

theorem word?_ofNat {n : Nat} (h : n < wordLimit) : (ofNat n).word? = some n := by
  simp [word?, ofNat, isWhole, append_toDigits h]

theorem leading_ofNat {n : Nat} (h : n < wordLimit) : (ofNat n).leading = (n, 0) := by
  simp [leading, ofNat, append_toDigits h, append]

theorem isSome_toDouble?_ofNat {n : Nat} (h : n < wordLimit) :
    ((ofNat n).toDouble? false).isSome = true := by
  have hfinite : ((Double.ofNat n).product (.powerOfTen 0)).isFinite = true :=
    Double.isFinite_product_ofNat h (by decide)
  simp only [toDouble?, leading_ofNat h, scale?, Option.isSome_map]
  by_cases hzero : (Double.ofNat n).isZero
  · rw [if_pos hzero]
    rfl
  · rw [if_neg hzero, if_neg (by decide), if_pos (by decide)]
    simp [Option.filter, hfinite]

/-! ## Numbers that are read -/

theorem leading_lt (w : Written) : w.leading.1 < wordLimit :=
  append_lt (append_lt (by decide) _) _

theorem isFinite_of_scale? {n : Nat} (hn : n < wordLimit) {power : Int} {x : Double}
    (h : scale? n power = some x) : x.isFinite = true := by
  have hnum : (Double.ofNat n).numerator < 2 ^ 67 := Double.numerator_ofNat_lt hn
  unfold scale? at h
  dsimp only at h
  split_ifs at h with hzero hlarge hup hdown htwice
  · obtain rfl := Option.some.inj h
    have hmagnitude : (Double.ofNat n).magnitude.val = 0 := of_decide_eq_true hzero
    simp [Double.isFinite, hmagnitude, Double.infinityMagnitude]
  · exact (Option.filter_eq_some_iff.1 h).2
  · obtain rfl := Option.some.inj h
    exact Double.isFinite_ratio_powerOfTen hnum hdown (by omega)
  · obtain rfl := Option.some.inj h
    have hfirst := Double.numerator_ratio_powerOfTen_lt hnum (Nat.le_refl maxPower)
    exact Double.isFinite_ratio_powerOfTen hfirst (by omega) (by omega)
  · obtain rfl := Option.some.inj h
    rfl

/-- Whatever number is written, the double that it stands for is finite. -/
theorem isFinite_of_toDouble? {w : Written} {negative : Bool} {x : Double}
    (h : w.toDouble? negative = some x) : x.isFinite = true := by
  obtain ⟨y, hy, rfl⟩ := Option.map_eq_some_iff.1 h
  have hfinite : y.isFinite = true := isFinite_of_scale? w.leading_lt hy
  exact hfinite

end Written

end EncryptedInference
